import ViewFinder.Proofs.Fault
import ViewFinder.Proofs.Json.RoundTrip
import ViewFinder.Proofs.Text.Separator

/-!
# Conditions written as texts

In `field=value` the separators of ranges and lists are looked for before the value is read as JSON, and
inside quotes too. A scalar in its JSON text is read back if and only if it holds no separator and splits
no surrogate pair (`Condition.parse_print_iff`). A list of integers and a range of two are always read
back from their decimal texts (`Condition.parse_integers`).
-/

namespace ViewFinder.Condition

open Text Json

/-- A field that can be written: a text without the sign that ends it and without blanks around it. -/
structure IsField (name : String) : Prop where
  nonempty : name ≠ ""
  unsplit : '=' ∉ name.toList
  trimmed : trim name.toList = name.toList

/-- A scalar of JSON that is no floating-point number. -/
inductive IsScalar : Value → Prop
  | null : IsScalar .null
  | bool (b : Bool) : IsScalar (.bool b)
  | int {n : Int} (hn : n.natAbs < 10 ^ maxDigits) : IsScalar (.int n)
  | str {s : String} (hs : isKept s = true) : IsScalar (.str s)

/-- The value, if it is a text, holds no separator and splits no surrogate pair. -/
def IsPlain : Value → Prop
  | .str s => ¬ ['.', '.'] <:+: s.toList ∧ ',' ∉ s.toList ∧ Whole s
  | _ => True

/-- A condition is read as the field and what its value is read as. -/
theorem parse_field {name : String} (h : IsField name) (value : List Char) :
    parse (name ++ "=" ++ String.ofList value) = (parseValue value).map fun v => (name, v) := by
  have hsplit : splitFirst ['='] (name ++ "=" ++ String.ofList value).toList = some (name.toList, value) := by
    have hsign : "=".toList = ['='] := rfl
    rw [String.toList_append, String.toList_append, hsign, String.toList_ofList, List.append_assoc]
    exact splitFirst_append h.unsplit value
  have hname : name.toList.isEmpty = false := by
    rw [List.isEmpty_eq_false_iff]
    exact fun hnil => h.nonempty (String.toList_inj.1 hnil)
  rw [parse, hsplit]
  simp only [h.trimmed, hname, String.ofList_toList]
  rfl

theorem parse_eq_ok_iff {name : String} (h : IsField name) (value : List Char) (v : Value) :
    parse (name ++ "=" ++ String.ofList value) = .ok (name, v) ↔ parseValue value = .ok v := by
  rw [parse_field h]
  cases parseValue value with
  | error e => exact iff_of_false nofun nofun
  | ok w => simp [Except.map]

/-! ## Separators in what is printed -/

/-- The separators of ranges and lists are made of dots and commas. -/
theorem forall_separators {P : Char → Prop} (hdot : P '.') (hcomma : P ',') : ∀ c ∈ ['.', ','], P c :=
  List.forall_mem_cons.2 ⟨hdot, List.forall_mem_singleton.2 hcomma⟩

/-- The characters of the separators are printed as themselves, and in no other code point. -/
theorem writes_escapePoint {c : Char} (hc : c ∈ ['.', ',']) : Writes escapePoint c := by
  have hfacts : ∀ c ∈ ['.', ','], escapePoint c.toNat = [c] ∧ (∀ d < 16, c ≠ Nat.digitChar d) ∧
      c ≠ '\\' ∧ c ≠ 'u' ∧ shortEscape? c = none :=
    forall_separators (by decide) (by decide)
  obtain ⟨hsame, hdigit, hslash, hu, hletter⟩ := hfacts c hc
  refine ⟨hsame, fun n hn hother => ?_⟩
  have hunit {m : Nat} (hm : m < 0x10000) : c ∉ unitEscape m := by
    rw [unitEscape, hexDigits_four hm]
    simp only [List.mem_cons, List.not_mem_nil, or_false, hslash, hu, false_or, not_or]
    exact ⟨hdigit _ (by omega), hdigit _ (by omega), hdigit _ (by omega), hdigit _ (by omega)⟩
  have hescaped := escaped_escapePoint hn
  generalize escapePoint n = letters at hescaped ⊢
  cases hescaped with
  | letter letter hshown hsome =>
    refine ⟨List.cons_ne_nil _ _, fun hmem => ?_⟩
    simp only [List.mem_cons, List.not_mem_nil, or_false, hslash, false_or] at hmem
    rw [← hmem, hletter] at hsome
    cases hsome
  | itself hshown =>
    obtain ⟨hhalf, hn⟩ := isHalf_of_isShown hshown
    refine ⟨List.cons_ne_nil _ _, fun hmem => hother ?_⟩
    rw [List.mem_singleton.1 hmem, toNat_ofNat_of_not_half hhalf hn]
  | unit hhidden hn => exact ⟨List.cons_ne_nil _ _, hunit hn⟩
  | pair hhidden hbeyond =>
    refine ⟨List.cons_ne_nil _ _, fun hmem => ?_⟩
    rcases List.mem_append.1 hmem with hmem | hmem
    · exact hunit (by unfold highHalf; omega) hmem
    · exact hunit (by unfold lowHalf; omega) hmem

/-- A separator occurs in the JSON text of a string if and only if it occurs in the string. -/
theorem infix_quote_iff {s : String} (hs : isKept s = true) {cs : List Char} (hne : cs ≠ [])
    (hcs : ∀ c ∈ cs, c ∈ ['.', ',']) : cs <:+: quote s.toList ↔ cs <:+: s.toList := by
  have hfacts : ∀ c ∈ ['.', ','], c.toNat < 0xD800 ∧ c ≠ '"' :=
    forall_separators (by decide) (by decide)
  have hpoints : ∀ n ∈ points s.toList, n < 0x110000 := lt_of_mem_points
  have hquote : '"' ∉ cs := fun hmem => (hfacts _ (hcs _ hmem)).2 rfl
  have hbefore := infix_flatMap_iff hpoints hne fun c hc => writes_ofPoint (hfacts c (hcs c hc)).1
  have hafter := infix_flatMap_iff hpoints hne fun c hc => writes_escapePoint (hcs c hc)
  have hkept : (points s.toList).flatMap ofPoint = s.toList := beq_iff_eq.1 hs
  rw [quote, ← List.cons_append, infix_append_singleton_of_not_mem hne hquote, ← hkept, hbefore, ← hafter,
    hkept, List.infix_cons_iff]
  refine or_iff_right fun h => hquote ?_
  obtain ⟨c, cs, rfl⟩ := List.exists_cons_of_ne_nil hne
  rw [(List.cons_prefix_cons.1 h).1]
  exact List.mem_cons_self ..

/-! ## Scalars -/

/-- A text without separators is a single value. -/
theorem parseValue_of_single {s : List Char} (hdots : ¬ ['.', '.'] <:+: s) (hcomma : ',' ∉ s) :
    parseValue s = scalar s := by
  have hcontains : ¬ s.contains ',' = true := fun h => hcomma (List.contains_iff_mem.1 h)
  rw [parseValue, (splitFirst_eq_none_iff (List.cons_ne_nil _ _)).2 hdots]
  exact if_neg hcontains

theorem scalar_of_spells {text : List Char} {v : Value} (h : Spells text v) (hdepth : nesting v ≤ deepest) :
    scalar text = .ok v := by
  rw [scalar, readChars_eq_readWithin, h.readWithin_eq hdepth]

/-- A string in its JSON text is read back if and only if it holds no separator and splits no pair. -/
theorem parseValue_quote_iff {s : String} (hs : isKept s = true) :
    parseValue (quote s.toList) = .ok (.str s) ↔ IsPlain (.str s) := by
  have hdots := infix_quote_iff hs (List.cons_ne_nil '.' ['.']) (by simp)
  have hcomma := infix_quote_iff hs (List.cons_ne_nil ',' []) (by simp)
  rw [List.singleton_infix_iff, List.singleton_infix_iff] at hcomma
  rw [IsPlain, ← hdots, ← hcomma, ← whole_eq_self_iff hs]
  by_cases hrange : ['.', '.'] <:+: quote s.toList
  · refine iff_of_false (fun h => ?_) fun h => h.1 hrange
    have hsome := mt (splitFirst_eq_none_iff (List.cons_ne_nil '.' ['.'])).1 (not_not_intro hrange)
    obtain ⟨⟨low, high⟩, hsplit⟩ := Option.ne_none_iff_exists'.1 hsome
    rw [parseValue, hsplit] at h
    simp only [Fault.bind_eq_ok_iff] at h
    obtain ⟨_, -, _, -, h⟩ := h
    cases h
  by_cases hlist : ',' ∈ quote s.toList
  · refine iff_of_false (fun h => ?_) fun h => h.2.1 hlist
    rw [parseValue, (splitFirst_eq_none_iff (List.cons_ne_nil _ _)).2 hrange] at h
    simp only [List.contains_iff_mem.2 hlist, if_true, Fault.bind_eq_ok_iff] at h
    obtain ⟨_, -, h⟩ := h
    cases h
  · rw [parseValue_of_single hrange hlist, scalar, readChars_eq_readWithin, readWithin_quote]
    simp only [Except.ok.injEq, Value.str.injEq, hrange, hlist, not_false_eq_true, true_and]

/-- No separator occurs in the decimal text of an integer. -/
theorem not_mem_decimalInt {c : Char} (hc : c ∈ ['.', ',']) (n : Int) : c ∉ decimalInt n := by
  have hfacts : ∀ c ∈ ['.', ','], c.isDigit = false ∧ c ≠ '-' :=
    forall_separators (by decide) (by decide)
  obtain ⟨hdigit, hsign⟩ := hfacts c hc
  have hdigits : c ∉ decimalDigits n.natAbs := fun hmem => by
    rw [isDigit_of_mem_decimalDigits hmem] at hdigit
    cases hdigit
  rw [decimalInt]
  split
  · rw [List.mem_cons, not_or]
    exact ⟨hsign, hdigits⟩
  · exact hdigits

theorem scalar_decimalInt {n : Int} (hn : n.natAbs < 10 ^ maxDigits) : scalar (decimalInt n) = .ok (.int n) :=
  scalar_of_spells (spells_int hn) (Nat.zero_le _)

/-! ## Integers -/

/-- A list of integers. -/
theorem parseValue_intercalate {ns : List Int} (hmany : 2 ≤ ns.length)
    (hns : ∀ n ∈ ns, n.natAbs < 10 ^ maxDigits) :
    parseValue ([','].intercalate (ns.map decimalInt)) = .ok (.list (ns.map .int)) := by
  have hmem {c : Char} (hc : c ∈ ['.', ',']) : ∀ text ∈ ns.map decimalInt, c ∉ text :=
    List.forall_mem_map.2 fun n _ => not_mem_decimalInt hc n
  have hne : ns.map decimalInt ≠ [] := by
    rw [Ne, List.map_eq_nil_iff]
    rintro rfl
    exact absurd hmany (by decide)
  have hdots : splitFirst ['.', '.'] ([','].intercalate (ns.map decimalInt)) = none := by
    refine (splitFirst_eq_none_iff (List.cons_ne_nil _ _)).2 fun h => ?_
    have hdot : ∀ c ∈ [','].intercalate (ns.map decimalInt), c ≠ '.' :=
      forall_mem_intercalate (List.forall_mem_singleton.2 (by decide)) fun text htext c hc heq =>
        hmem (by decide : '.' ∈ ['.', ',']) text htext (heq ▸ hc)
    exact hdot '.' (h.mem (List.mem_cons_self ..)) rfl
  have hcomma : ([','].intercalate (ns.map decimalInt)).contains ',' = true := by
    obtain ⟨n, m, ns, rfl⟩ : ∃ n m rest, ns = n :: m :: rest := by
      match ns, hmany with
      | n :: m :: rest, _ => exact ⟨n, m, rest, rfl⟩
    rw [List.map_cons, List.map_cons, List.intercalate_cons_cons]
    simp
  have hsplit : (splitCommas ([','].intercalate (ns.map decimalInt))).filter (!·.isEmpty) =
      ns.map decimalInt := by
    rw [splitCommas, List.splitOn_intercalate ',' (hmem (by decide)) hne, List.filter_eq_self]
    exact List.forall_mem_map.2 fun n _ => by
      obtain ⟨c, tail, hcons, -⟩ := exists_decimalInt_eq_cons n
      rw [hcons]
      rfl
  have hitems : (ns.map decimalInt).mapM scalar = .ok (ns.map .int) := by
    rw [List.mapM_map]
    exact Fault.mapM_eq_ok fun n hn => scalar_decimalInt (hns n hn)
  rw [parseValue, hdots]
  simp only [hcomma, if_true, hsplit, hitems]
  rfl

theorem parseValue_range {a b : Int} (ha : a.natAbs < 10 ^ maxDigits) (hb : b.natAbs < 10 ^ maxDigits) :
    parseValue (decimalInt a ++ ['.', '.'] ++ decimalInt b) = .ok (.range (.int a) (.int b)) := by
  rw [List.append_assoc, parseValue, splitFirst_append (not_mem_decimalInt (by decide) a)]
  simp only [scalar_decimalInt ha, scalar_decimalInt hb]
  rfl

/-! ## Conditions -/

/-- A scalar in its JSON text, written for a field, is read back if and only if it is no text or one
that holds no separator and splits no pair. -/
theorem parse_print_iff {name : String} (hname : IsField name) {v : Value} (hv : IsScalar v) :
    ∃ text, Json.print v = .ok text ∧ (parse (name ++ "=" ++ text) = .ok (name, v) ↔ IsPlain v) := by
  -- What is no text has no separator in its JSON text.
  have hsingle {text : List Char} (hspells : Spells text v) (hdepth : nesting v = 0)
      (hdots : '.' ∉ text) (hcomma : ',' ∉ text) : parseValue text = .ok v := by
    rw [parseValue_of_single (fun h => hdots (h.mem (List.mem_cons_self ..))) hcomma]
    exact scalar_of_spells hspells (hdepth ▸ Nat.zero_le _)
  cases hv with
  | null =>
    have hread := hsingle spells_null rfl (by decide) (by decide)
    exact ⟨_, rfl, iff_of_true ((parse_eq_ok_iff hname _ _).2 hread) trivial⟩
  | bool b =>
    have hseparators : ∀ b : Bool, '.' ∉ (if b then "true".toList else "false".toList) ∧
      ',' ∉ (if b then "true".toList else "false".toList) := by decide
    have hread := hsingle (spells_bool b) rfl (hseparators b).1 (hseparators b).2
    exact ⟨_, by cases b <;> rfl, iff_of_true ((parse_eq_ok_iff hname _ _).2 hread) trivial⟩
  | int hn =>
    have hread := hsingle (spells_int hn) rfl (not_mem_decimalInt (by decide) _)
      (not_mem_decimalInt (by decide) _)
    exact ⟨_, rfl, iff_of_true ((parse_eq_ok_iff hname _ _).2 hread) trivial⟩
  | str hs => exact ⟨_, rfl, (parse_eq_ok_iff hname _ _).trans (parseValue_quote_iff hs)⟩

/-- A text with a backslash, quotes, a line end, a sign and a character beyond ASCII is read back. -/
theorem parse_print_name : ∃ text, Json.print (.str "\\ \"it's\" = é\n.") = .ok text ∧
    parse ("name" ++ "=" ++ text) = .ok ("name", .str "\\ \"it's\" = é\n.") := by
  have hname : IsField "name" := ⟨by decide, by decide, by decide⟩
  have hkept : isKept "\\ \"it's\" = é\n." = true := by decide
  obtain ⟨text, hprint, hread⟩ := parse_print_iff hname (.str hkept)
  exact ⟨text, hprint, hread.2 ⟨by decide, by decide, hkept, by decide⟩⟩

/-- A text that holds a comma, one that holds two dots and one that splits a pair are not read back. -/
theorem parse_print_separated : IsField "name" ∧
    ∀ s ∈ ["a,b", "a..b", String.ofList (ofPoints [0xD83D, 0xDE00])], IsScalar (.str s) ∧
      ∃ text, Json.print (.str s) = .ok text ∧ parse ("name" ++ "=" ++ text) ≠ .ok ("name", .str s) := by
  have hname : IsField "name" := ⟨by decide, by decide, by decide⟩
  have hkept : ∀ s ∈ ["a,b", "a..b", String.ofList (ofPoints [0xD83D, 0xDE00])], isKept s = true := by decide
  refine ⟨hname, fun s hs => ⟨.str (hkept s hs), String.ofList (quote s.toList), rfl, fun hread => ?_⟩⟩
  have hplain := (parseValue_quote_iff (hkept s hs)).1 ((parse_eq_ok_iff hname _ _).1 hread)
  simp only [List.mem_cons, List.not_mem_nil, or_false] at hs
  rcases hs with rfl | rfl | rfl
  · exact hplain.2.1 (by decide)
  · exact hplain.1 (by decide)
  · exact absurd hplain.2.2.unsplit (by decide)

/-- A list of at least two integers and a range of two are read back from their decimal texts. -/
theorem parse_integers {name : String} (hname : IsField name) :
    (∀ ns : List Int, 2 ≤ ns.length → (∀ n ∈ ns, n.natAbs < 10 ^ maxDigits) →
      parse (name ++ "=" ++ String.ofList ([','].intercalate (ns.map decimalInt))) =
        .ok (name, .list (ns.map .int))) ∧
    ∀ a b : Int, a.natAbs < 10 ^ maxDigits → b.natAbs < 10 ^ maxDigits →
      parse (name ++ "=" ++ String.ofList (decimalInt a ++ ['.', '.'] ++ decimalInt b)) =
        .ok (name, .range (.int a) (.int b)) := by
  refine ⟨fun ns hmany hns => ?_, fun a b ha hb => ?_⟩
  · rw [parse_field hname, parseValue_intercalate hmany hns]
    rfl
  · rw [parse_field hname, parseValue_range ha hb]
    rfl

/-- Some grades, one of them twice, and a range from a negative number. -/
theorem parse_integers_grades :
    parse "grade=9,-11,9" = .ok ("grade", .list [.int 9, .int (-11), .int 9]) ∧
      parse "grade=-3..20" = .ok ("grade", .range (.int (-3)) (.int 20)) := by
  have hname : IsField "grade" := ⟨by decide, by decide, by decide⟩
  have hsmall : ∀ n ∈ [9, -11, (9 : Int)], n.natAbs < 10 ^ 9 := by decide
  have hlist := (parse_integers hname).1 [9, -11, 9] (by decide) fun n hn => lt_pow_maxDigits (hsmall n hn)
  have hrange := (parse_integers hname).2 (-3) 20 (lt_pow_maxDigits (by decide))
    (lt_pow_maxDigits (by decide))
  have hlistText : "grade" ++ "=" ++ String.ofList ([','].intercalate ([9, -11, 9].map decimalInt)) =
      "grade=9,-11,9" := by decide
  have hrangeText : "grade" ++ "=" ++ String.ofList (decimalInt (-3) ++ ['.', '.'] ++ decimalInt 20) =
      "grade=-3..20" := by decide
  rw [hlistText] at hlist
  rw [hrangeText] at hrange
  exact ⟨hlist, hrange⟩

end ViewFinder.Condition
