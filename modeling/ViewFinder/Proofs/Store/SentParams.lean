import ViewFinder.Proofs.Fault
import ViewFinder.Proofs.Json.RoundTrip
import ViewFinder.Store.Params

/-!
# View parameters that are read back

A view request carries each parameter in one place: the list of keys in its body, every other one in the
query string. Read from there (`Store.decodeParams`), keys as JSON and all else as a truth value or an
integer, the parameters are what they were (`Store.encodeParams_recoverable`).
-/

namespace ViewFinder.Store

open Text Json

/-! ## Reading a request -/

/-- The value of a parameter that is sent as text in the query string. Arrays and objects may be nested
in it as deep as is said. -/
def readParam (depth : Nat) (name text : String) : Except Fault Value :=
  if name ∈ jsonParams then (readWithin depth text.toList).mapError .unreadable
  else if text = "true" then .ok (.bool true)
  else if text = "false" then .ok (.bool false)
  else (readInteger text).map .int

/-- The parameter of an entry of the query string. -/
def readEntry (depth : Nat) : Value × Value → Except Fault (Value × Value)
  | (.str name, .str text) => do return (.str name, ← readParam depth name text)
  | _ => .error .wrongKind

/-- The parameters that the query string and the body of a request carry. -/
def decodeParams (depth : Nat) (query : Entries) (body : Option Value) : Except Fault Entries := do
  let sent ← query.mapM (readEntry depth)
  let carried ← (body.getD (.dict [])).entries
  return sent ++ carried

/-! ## One parameter -/

/-- A truth value or an integer. -/
inductive IsSetting : Value → Prop
  | bool (b : Bool) : IsSetting (.bool b)
  | int {n : Int} (hn : n.natAbs < 10 ^ maxDigits) : IsSetting (.int n)

/-- A value that a parameter can have: JSON for keys, a setting for all else. -/
def Carries (name : String) (v : Value) : Prop :=
  if name = "keys" ∨ name ∈ jsonParams then Faithful v else IsSetting v

theorem isJsonParam_iff (name : String) :
    (jsonParams.map Value.str).any (·.sameKey (.str name)) = true ↔ name ∈ jsonParams := by
  simp only [List.any_map, List.any_eq_true, Function.comp_apply, Value.sameKey_str, decide_eq_true_eq,
    exists_eq_right]

theorem paramText_of_mem {name : String} (h : name ∈ jsonParams) (v : Value) :
    paramText (.str name) v = Json.print v := by
  unfold paramText
  rw [if_pos ((isJsonParam_iff name).2 h)]

/-- A parameter of the query string has a text, and is read back from it. -/
theorem exists_paramText {name : String} {v : Value} (hkeys : name ≠ "keys") (h : Carries name v) :
    ∃ text, paramText (.str name) v = .ok text ∧
      ∀ depth, nesting v ≤ depth → readParam depth name text = .ok v := by
  by_cases hjson : name ∈ jsonParams
  · rw [Carries, if_pos (.inr hjson)] at h
    obtain ⟨text, hprint, hspells⟩ := h.exists_print?
    refine ⟨String.ofList text, by rw [paramText_of_mem hjson, print, hprint]; rfl, fun depth hdepth => ?_⟩
    rw [readParam, if_pos hjson, String.toList_ofList, hspells.readWithin_eq hdepth]
    rfl
  rw [Carries, if_neg (not_or.2 ⟨hkeys, hjson⟩)] at h
  have hother := mt (isJsonParam_iff name).1 hjson
  unfold paramText readParam
  simp only [if_neg hother, if_neg hjson]
  cases h with
  | bool b => cases b <;> exact ⟨_, rfl, fun _ _ => rfl⟩
  | @int n hn =>
    obtain ⟨c, rest, hcons, hc⟩ := exists_decimalInt_eq_cons n
    have hne {s : String} {d : Char} (hs : s.toList.head? = some d) (hsign : d ≠ '-')
        (hdigit : d.isDigit = false) : String.ofList (decimalInt n) ≠ s := by
      rintro rfl
      rw [String.toList_ofList, hcons] at hs
      cases hs
      rcases hc with hc | hc
      · exact hsign hc
      · rw [hc] at hdigit
        cases hdigit
    refine ⟨String.ofList (decimalInt n), rfl, fun _ _ => ?_⟩
    rw [if_neg (hne (d := 't') rfl (by decide) (by decide)),
      if_neg (hne (d := 'f') rfl (by decide) (by decide)), readInteger_decimalInt hn]
    rfl

/-- Two values of a parameter that is sent as JSON are not sent as the same text. -/
theorem paramText_ne {name : String} (hname : name ∈ jsonParams) {v w : Value} (hv : Faithful v)
    (hw : Faithful w) (hne : v ≠ w) : paramText (.str name) v ≠ paramText (.str name) w := by
  obtain ⟨text, hprint, hspells⟩ := hv.exists_print?
  obtain ⟨text', hprint', hspells'⟩ := hw.exists_print?
  rw [paramText_of_mem hname, paramText_of_mem hname, print, print, hprint, hprint']
  intro heq
  have htext : text = text' := String.ofList_injective (Except.ok.inj heq)
  exact hne (hspells.eq (htext ▸ hspells'))

/-! ## All parameters -/

/-- Parameters that can be sent: each has a name of its own and a value that it can have. -/
structure Sendable (params : Entries) : Prop where
  named : params.Named
  carries : ∀ n v, (.str n, v) ∈ params → Carries n v

/-- The entry of the query string is that of a parameter, whose value is read back from it. -/
structure Sends (sent e : Value × Value) : Prop where
  name : sent.1 = e.1
  reads : ∀ depth, nesting e.2 ≤ depth → readEntry depth sent = .ok e

theorem equal_keys (n : String) : (Value.str n).equal (.str "keys") = decide (n = "keys") := by
  simp [Value.equal, Value.agree, Bool.beq_eq_decide_eq]

/-- The parameters are split: the list of keys for the body, all others for the query string. -/
theorem exists_splitParams {params : Entries} (h : Sendable params) :
    ∃ query, splitParams params = .ok (query, params.get? "keys") ∧
      List.Forall₂ Sends query (params.filter fun e => !e.1.sameKey (.str "keys")) := by
  obtain ⟨hnamed, hcarries⟩ := h
  induction params with
  | nil => exact ⟨[], rfl, .nil⟩
  | cons e params ih =>
    obtain ⟨k, v⟩ := e
    obtain ⟨n, rfl, hnone, hrest⟩ := hnamed.of_cons
    obtain ⟨query, hsplit, hsends⟩ := ih hrest fun m w hm => hcarries m w (List.mem_cons_of_mem _ hm)
    by_cases hkeys : n = "keys"
    · subst hkeys
      refine ⟨query, ?_, ?_⟩
      · rw [splitParams, equal_keys, hsplit, hnone, Entries.get?_cons_str, if_pos rfl]
        rfl
      · rwa [List.filter_cons_of_neg (by rw [Value.sameKey_str]; decide)]
    · obtain ⟨text, htext, hreads⟩ := exists_paramText hkeys (hcarries n v (List.mem_cons_self ..))
      refine ⟨(.str n, .str text) :: query, ?_, ?_⟩
      · rw [splitParams, equal_keys, decide_eq_false hkeys, if_neg (by decide), htext, hsplit,
          Entries.get?_cons_str, if_neg hkeys]
        rfl
      · rw [List.filter_cons, Value.sameKey_str, decide_eq_false hkeys]
        refine .cons ⟨rfl, fun depth hdepth => ?_⟩ hsends
        rw [readEntry, hreads depth hdepth]
        rfl

/-- Taken apart and put together again, the parameters are what they were, but for their order. -/
theorem filter_append_keysBody_perm {params : Entries} (h : params.Named) :
    (params.filter (fun e => !e.1.sameKey (.str "keys")) ++ keysBody (params.get? "keys")).Perm params := by
  induction params with
  | nil => exact .nil
  | cons e params ih =>
    obtain ⟨k, v⟩ := e
    obtain ⟨n, rfl, hnone, hrest⟩ := h.of_cons
    have ih := ih hrest
    rw [Entries.get?_cons_str]
    by_cases hkeys : n = "keys"
    · subst hkeys
      rw [hnone, keysBody, List.append_nil] at ih
      rw [if_pos rfl, List.filter_cons_of_neg (by rw [Value.sameKey_str]; decide)]
      exact (List.perm_append_singleton _ _).trans (ih.cons _)
    · rw [if_neg hkeys, List.filter_cons_of_pos (by rw [Value.sameKey_str, decide_eq_false hkeys]; rfl)]
      exact ih.cons _

/-- A request carries each parameter in one place: the list of keys in the body, every other one in the
query string. They are read back from there, and two different keys are never sent as the same text. -/
theorem encodeParams_recoverable :
    (∀ params : Entries, Sendable params → ∃ query body, encodeParams (.dict params) = .ok (query, body) ∧
      query.map (·.1) = (params.filter fun e => !e.1.sameKey (.str "keys")).map (·.1) ∧
      body = (params.get? "keys").map (fun keys => .dict [(.str "keys", keys)]) ∧
      ∀ depth, (∀ e ∈ params, nesting e.2 ≤ depth) →
        ∃ decoded, decodeParams depth query body = .ok decoded ∧ decoded.Perm params) ∧
    ∀ name ∈ jsonParams, ∀ v w, Faithful v → Faithful w → v ≠ w →
      paramText (.str name) v ≠ paramText (.str name) w := by
  refine ⟨fun params h => ?_, fun name hname v w hv hw hne => paramText_ne hname hv hw hne⟩
  obtain ⟨query, hsplit, hsends⟩ := exists_splitParams h
  have hbody : (if (params.get? "keys").isSome then some (Value.dict (keysBody (params.get? "keys")))
      else none) = (params.get? "keys").map fun keys => .dict [(.str "keys", keys)] := by
    cases params.get? "keys" <;> rfl
  refine ⟨query, _, ?_, ?_, rfl, fun depth hdepth => ?_⟩
  · rw [encodeParams, Value.entries, ← hbody]
    simp only [bind, Except.bind, hsplit]
    rfl
  · rw [← List.forall₂_eq_eq_eq, List.forall₂_map_left_iff, List.forall₂_map_right_iff]
    exact hsends.imp fun _ _ h => h.name
  · have hread : query.mapM (readEntry depth) = .ok (params.filter fun e => !e.1.sameKey (.str "keys")) := by
      have hshallow := (List.forall₂_and_left _ _).2
        ⟨fun e he => hdepth e (List.mem_of_mem_filter he), hsends.flip⟩
      exact Fault.mapM_eq_ok_iff.2 (hshallow.flip.imp fun _ _ h => h.2.reads depth h.1)
    refine ⟨_, ?_, filter_append_keysBody_perm h.named⟩
    rw [decodeParams, hread]
    cases params.get? "keys" <;> rfl

/-- Parameters with a list of keys, a nested key of texts that need escapes, a number and a truth value. -/
def nestedParams : Entries :=
  [(.str "startkey", .list [.str "\"é\"\n", .dict [(.str "𝄞", .int (-1))], .null]),
    (.str "keys", .list [.int 9, .bool true]), (.str "limit", .int 1), (.str "descending", .bool true)]

theorem nestedParams_recoverable : ∃ query body, encodeParams (.dict nestedParams) = .ok (query, body) ∧
    query.map (·.1) = [.str "startkey", .str "limit", .str "descending"] ∧
    body = some (.dict [(.str "keys", .list [.int 9, .bool true])]) ∧
    ∃ decoded, decodeParams deepest query body = .ok decoded ∧ decoded.Perm nestedParams := by
  have hsmall {n : Int} (hn : n.natAbs < 10 ^ 9) : n.natAbs < 10 ^ maxDigits := lt_pow_maxDigits hn
  have hquoted : Whole "\"é\"\n" := ⟨by decide, by decide⟩
  have hclef : Whole "𝄞" := ⟨by decide, by decide⟩
  have hdict : Faithful (.dict [(.str "𝄞", .int (-1))]) := by
    refine .dict ⟨by simp, by simp⟩ ?_ ?_
    · exact List.forall_mem_singleton.2 ⟨_, rfl, hclef⟩
    · exact List.forall_mem_singleton.2 (.int (hsmall (by decide)))
  have hstart : Faithful (.list [.str "\"é\"\n", .dict [(.str "𝄞", .int (-1))], .null]) := by
    refine .list ?_
    simp only [List.forall_mem_cons, List.not_mem_nil, IsEmpty.forall_iff, implies_true, and_true]
    exact ⟨.str hquoted, hdict, .null⟩
  have hkeys : Faithful (.list [.int 9, .bool true]) := by
    refine .list ?_
    simp only [List.forall_mem_cons, List.not_mem_nil, IsEmpty.forall_iff, implies_true, and_true]
    exact ⟨.int (hsmall (by decide)), .bool true⟩
  have hnamed : nestedParams.Named := ⟨by simp [nestedParams], by simp [nestedParams]⟩
  have hcarries : ∀ n v, (.str n, v) ∈ nestedParams → Carries n v := by
    intro n v hmem
    simp only [nestedParams, List.mem_cons, List.not_mem_nil, or_false, Prod.mk.injEq,
      Value.str.injEq] at hmem
    rcases hmem with ⟨rfl, rfl⟩ | ⟨rfl, rfl⟩ | ⟨rfl, rfl⟩ | ⟨rfl, rfl⟩
    · exact hstart
    · exact hkeys
    · exact IsSetting.int (hsmall (by decide))
    · exact IsSetting.bool true
  obtain ⟨query, body, hencode, hnames, hbody, hdecode⟩ :=
    encodeParams_recoverable.1 nestedParams ⟨hnamed, hcarries⟩
  have hdepth : ∀ e ∈ nestedParams, nesting e.2 ≤ deepest := by
    simp [nestedParams, nesting, nestingOfItems, nestingOfMembers, deepest]
  refine ⟨query, body, hencode, ?_, ?_, hdecode deepest hdepth⟩
  · rw [hnames]
    simp [nestedParams]
  · rw [hbody]
    simp [nestedParams]

end ViewFinder.Store
