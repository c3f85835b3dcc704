import ViewFinder.Proofs.Count
import ViewFinder.Proofs.Query.CreateOnMiss
import ViewFinder.Proofs.Query.Execution
import ViewFinder.Store.Scripted

/-!
# One request for each key

A query with fallback keys is sent once for each of them, whatever the store, and the rows of all answers
are put together without those whose id came up further up (`CompiledQuery.firsts`). A store that answers
every one of the requests with rows is asked nothing else, and the window of the query is cut out of the
rows of all keys (`CompiledQuery.execute_perKey`).
-/

namespace ViewFinder

open Store

namespace CompiledQuery

/-! ## Rows that do not repeat an id -/

/-- The id of a row, if it has one. -/
def rowId? : Value → Option String
  | .dict es =>
    match Entries.getD es "id" with
    | .str id => some id
    | _ => none
  | _ => none

/-- A row is an object whose id is a text, or which has none. -/
def IsRow (row : Value) : Prop :=
  ∃ es : Entries, row = .dict es ∧ (es.getD "id" = .null ∨ ∃ id, es.getD "id" = .str id)

/-- Has the row an id that a row further up has too? -/
def repeats (before : List Value) (row : Value) : Bool :=
  (rowId? row).any fun id => before.any (rowId? · == some id)

/-- The rows without those that have the id of a row further up. Rows without an id are all kept. -/
def firsts (rows : List Value) : List Value :=
  (rows.zipIdx.filter fun (row, i) => !repeats (rows.take i) row).map (·.1)

/-- The rows that have neither the id of one that came before nor that of one further up. -/
def firstsAfter (before : List Value) : List Value → List Value
  | [] => []
  | row :: rows =>
    if repeats before row then firstsAfter (before ++ [row]) rows
    else row :: firstsAfter (before ++ [row]) rows

theorem firstsAfter_append (before rows others : List Value) :
    firstsAfter before (rows ++ others) =
      firstsAfter before rows ++ firstsAfter (before ++ rows) others := by
  induction rows generalizing before with
  | nil => simp [firstsAfter]
  | cons row rows ih =>
    have hbefore : before ++ [row] ++ rows = before ++ row :: rows := by simp
    simp only [List.cons_append, firstsAfter, ih, hbefore]
    split <;> rfl

theorem firstsAfter_eq (before rows : List Value) : firstsAfter before rows =
    ((rows.zipIdx before.length).filter fun (row, i) =>
      !repeats ((before ++ rows).take i) row).map (·.1) := by
  induction rows generalizing before with
  | nil => rfl
  | cons row rows ih =>
    have hrest := ih (before ++ [row])
    rw [List.append_assoc, List.singleton_append, List.length_append, List.length_singleton] at hrest
    rw [firstsAfter, hrest, List.zipIdx_cons, List.filter_cons]
    simp only [List.take_left]
    cases repeats before row <;> rfl

theorem firsts_eq (rows : List Value) : firsts rows = firstsAfter [] rows :=
  (firstsAfter_eq [] rows).symm

/-- The ids seen are those of the rows that came up. -/
def Knows (seen rows : List Value) : Prop :=
  ∀ id, seen.any (·.sameKey (.str id)) = rows.any (rowId? · == some id)

section
variable {seen before : List Value} (h : Knows seen before) {row : Value}
include h

theorem Knows.repeats_eq {id : String} (hrow : rowId? row = some id) :
    repeats before row = seen.any (·.sameKey (.str id)) := by
  rw [repeats, hrow, h id]
  rfl

/-- A row without an id adds none to those seen. -/
theorem Knows.skip (hrow : rowId? row = none) : Knows seen (before ++ [row]) := fun id => by
  simp [h id, hrow]

/-- A row that repeats an id adds none to those seen. -/
theorem Knows.again (hrow : repeats before row = true) : Knows seen (before ++ [row]) := fun other => by
  obtain ⟨id, hid, hseen⟩ := (Option.any_eq_true ..).1 hrow
  rw [h, List.any_append, List.any_cons, List.any_nil, Bool.or_false, hid]
  by_cases heq : id = other
  · simp [← heq, hseen]
  · simp [heq]

/-- The id of a row is seen from then on. -/
theorem Knows.add {id : String} (hrow : rowId? row = some id) :
    Knows (.str id :: seen) (before ++ [row]) := fun other => by
  rw [List.any_cons, h, List.any_append, List.any_cons, List.any_nil, hrow, Bool.or_false,
    Value.sameKey_str, Bool.or_comm]
  rfl

end

/-- Fresh rows are those that do not repeat an id. -/
theorem freshRows_firstsAfter {rows : List Value} (hrows : ∀ row ∈ rows, IsRow row)
    {seen before : List Value} (hseen : Knows seen before) :
    ∃ seen', freshRows seen rows = .ok (firstsAfter before rows, seen') ∧
      Knows seen' (before ++ rows) := by
  induction rows generalizing seen before with
  | nil => exact ⟨seen, rfl, by rwa [List.append_nil]⟩
  | cons row rows ih =>
    obtain ⟨⟨es, rfl, hid⟩, hrest⟩ := List.forall_mem_cons.1 hrows
    have hmember : (Value.dict es).member "id" = .ok (es.getD "id") := rfl
    rw [List.append_cons, freshRows, hmember, firstsAfter]
    rcases hid with hid | ⟨id, hid⟩
    · have hnone : rowId? (.dict es) = none := by rw [rowId?, hid]
      obtain ⟨seen', hfresh, hknows⟩ := ih hrest (hseen.skip hnone)
      refine ⟨seen', ?_, hknows⟩
      simp [hid, Value.isNull, hfresh, repeats, hnone, bind, Except.bind, pure, Except.pure]
    · have hsome : rowId? (.dict es) = some id := by rw [rowId?, hid]
      have hrepeats := hseen.repeats_eq hsome
      cases hany : seen.any (·.sameKey (.str id)) with
      | true =>
        obtain ⟨seen', hfresh, hknows⟩ := ih hrest (hseen.again (hrepeats.trans hany))
        refine ⟨seen', ?_, hknows⟩
        simp [hid, Value.isNull, Value.hashable, hany, hrepeats, hfresh, bind, Except.bind]
      | false =>
        obtain ⟨seen', hfresh, hknows⟩ := ih hrest (hseen.add hsome)
        refine ⟨seen', ?_, hknows⟩
        simp [hid, Value.isNull, Value.hashable, hany, hrepeats, hfresh, bind, Except.bind, pure,
          Except.pure]

/-! ## The requests -/

section
variable (q : CompiledQuery) (s : Setting)

/-- The request of a query for one of its keys. -/
def keyRequest (key : Value) : Request :=
  if q.slow.truthy then .adHoc s.profile.adHocPath q.mapSource q.reduceSource (q.keyParams s.profile key)
  else .view (q.viewPath s.profile) (q.keyParams s.profile key)

/-- Is the query permitted? -/
def Permitted : Prop := q.slow.truthy = true → s.allowAdHoc = true

/-- The query for one of the keys. -/
def single (key : Value) : CompiledQuery :=
  { q with params := q.keyParams s.profile key, fallbackKeys := .list [] }

end

/-- From a state on, a store answers some requests one after the other, without a fault. -/
inductive Replies {σ : Type} (answer : σ → Request → Answer × σ) :
    σ → List Request → List Value → σ → Prop
  | nil (st : σ) : Replies answer st [] [] st
  | cons {st after last : σ} {r : Request} {response : Value} {rs : List Request}
    {responses : List Value} (h : answer st r = (.ok response, after))
    (hrest : Replies answer after rs responses last) :
    Replies answer st (r :: rs) (response :: responses) last

section
variable {σ : Type} {answer : σ → Request → Answer × σ} (views : List Value) {st after last : σ}
  {q : CompiledQuery} {s : Setting}

/-- A query for one of the keys that the store answers is one request. -/
theorem run_single (hpermitted : q.Permitted s) {key response : Value}
    (h : answer st (q.keyRequest s key) = (.ok response, after)) :
    ((q.single s key).executeOne s).run answer views st = (.ok response, views, after) ∧
      ((q.single s key).executeOne s).exchanges answer st =
        [(q.keyRequest s key, .ok response)] := by
  cases hslow : q.slow.truthy with
  | true =>
    have hdialogue : (q.single s key).executeOne s = Dialogue.request (q.keyRequest s key) := by
      rw [executeOne, single, if_pos hslow, executeAdHoc, if_pos (hpermitted hslow), keyRequest,
        if_pos hslow]
    rw [hdialogue, Dialogue.request, Dialogue.run_ask, Dialogue.exchanges, h]
    exact ⟨rfl, rfl⟩
  | false =>
    have hdialogue : (q.single s key).executeOne s = (q.single s key).executeIndexed s :=
      if_neg (by simp [single, hslow])
    have hrequest : (q.single s key).viewRequest s = q.keyRequest s key :=
      (if_neg (by simp [hslow])).symm
    rw [← hrequest] at h ⊢
    rw [hdialogue, run_executeIndexed answer views st _ s h, exchanges_executeIndexed answer st _ s h]
    exact ⟨rfl, rfl⟩

/-- Once a query is answered, its fresh rows come before those of the other queries. -/
theorem gather_next {response : Value} {rows kept seen seen' : List Value}
    (hresponse : rowsOf response = .ok rows) (hfresh : freshRows seen rows = .ok (kept, seen'))
    (queries : List CompiledQuery) :
    (do
      let (rows, seen) ← freshRows seen (← rowsOf response)
      return rows ++ (← gather s seen queries) : Dialogue (List Value)) =
    (do return kept ++ (← gather s seen' queries)) := by
  rw [hresponse]
  show (do
    let (rows, seen) ← (freshRows seen rows : Dialogue _)
    return rows ++ (← gather s seen queries) : Dialogue (List Value)) = _
  rw [hfresh]
  rfl

/-- Requests that a store answers with rows, one for each key, put together the rows that do not repeat
an id. -/
theorem run_gather (hpermitted : q.Permitted s) {keys : List Value} {responses : List Value}
    (h : Replies answer st (keys.map (q.keyRequest s)) responses last)
    {answers : List (List Value)}
    (hanswers : List.Forall₂ (fun response rows => rowsOf response = .ok rows) responses answers)
    (hrows : ∀ rows ∈ answers, ∀ row ∈ rows, IsRow row) {seen before : List Value}
    (hseen : Knows seen before) :
    (gather s seen (keys.map (q.single s))).run answer views st =
        (.ok (firstsAfter before answers.flatten), views, last) ∧
      (gather s seen (keys.map (q.single s))).exchanges answer st =
        (keys.map (q.keyRequest s)).zip (responses.map .ok) := by
  induction keys generalizing st responses answers seen before with
  | nil =>
    cases h
    cases hanswers
    exact ⟨rfl, rfl⟩
  | cons key keys ih =>
    cases h with | @cons _ after _ _ response _ responses h hrest
    cases hanswers with | @cons _ rows _ answers hresponse hanswers
    obtain ⟨hfirst, hothers⟩ := List.forall_mem_cons.1 hrows
    obtain ⟨seen', hfresh, hknows⟩ := freshRows_firstsAfter hfirst hseen
    obtain ⟨hrun, hlog⟩ := run_single views hpermitted h
    obtain ⟨hrunRest, hlogRest⟩ := ih hrest hanswers hothers hknows
    rw [List.map_cons, gather, Dialogue.run_bind, Dialogue.exchanges_bind answer _ _ views, hrun, hlog]
    simp only [gather_next hresponse hfresh, Dialogue.run_bind,
      Dialogue.exchanges_bind answer _ _ views, hrunRest, hlogRest]
    rw [List.flatten_cons, firstsAfter_append]
    exact ⟨rfl, congrArg (_ :: ·) (List.append_nil _)⟩

end

/-- A query that is sent for each key puts the window of the rows together. -/
theorem executePerKey_eq {q : CompiledQuery} {s : Setting} {keys : List Value}
    (hkeys : q.fallbackKeys = .list keys) {limit skip : Option Nat}
    (hlimit : q.params.get? s.profile.limitParam = limit.map fun n => .int n)
    (hskip : q.params.get? Profile.offsetParam = skip.map fun n => .int n) :
    q.executePerKey s = (do
      let rows ← gather s [] (keys.map (q.single s))
      let rows := Window.cut (skip.getD 0 : Nat) (limit.map Int.ofNat) rows
      return Window.response rows.length (skip.getD 0 : Nat) rows) := by
  have hparam {name : String} {n : Option Nat}
      (h : q.params.get? name = n.map fun n => .int n) :
      integerParam? q.params name = .ok (n.map Int.ofNat) := by
    cases n <;> rw [integerParam?, h] <;> rfl
  have hperKey : q.perKey = .ok (keys.map q.withKey) := by
    rw [perKey, hkeys]
    rfl
  have hskip' : (skip.map Int.ofNat).getD 0 = (skip.getD 0 : Nat) := by
    cases skip <;> rfl
  rw [executePerKey, hparam hlimit, hparam hskip, hperKey, ← hskip']
  show (gather s [] ((keys.map q.withKey).map _) >>= _) = _
  rw [List.map_map]
  rfl

/-- A query with fallback keys sends one request for each of them, in order, with the parameters of the
query but for the window and the key. If the store answers them with rows, those that do not repeat the
id of a row further up, in this or an earlier answer, are put together, and the window of the query is cut
out of them. A query that is not permitted makes no request. -/
theorem execute_perKey {σ : Type} (answer : σ → Request → Answer × σ) (views : List Value) (st : σ)
    (q : CompiledQuery) (s : Setting) {keys : List Value} (hkeys : q.fallbackKeys = .list keys)
    (hne : keys ≠ []) (limit skip : Option Nat)
    (hlimit : q.params.get? s.profile.limitParam = limit.map fun n => .int n)
    (hskip : q.params.get? Profile.offsetParam = skip.map fun n => .int n) :
    (q.Permitted s → ∀ (responses : List Value) (answers : List (List Value)) (last : σ),
      Replies answer st (keys.map (q.keyRequest s)) responses last →
      List.Forall₂ (fun response rows => rowsOf response = .ok rows) responses answers →
      (∀ rows ∈ answers, ∀ row ∈ rows, IsRow row) →
        (q.execute s).exchanges answer st =
          (keys.map (q.keyRequest s)).zip (responses.map .ok) ∧
        ∃ rows : List Value, (q.execute s).run answer views st =
            (.ok (Window.response rows.length (skip.getD 0 : Nat) rows), views, last) ∧
          rows = limit.elim ((firsts answers.flatten).drop (skip.getD 0))
            ((firsts answers.flatten).drop (skip.getD 0)).take) ∧
    (∀ (key : Value) (name : String), (q.keyParams s.profile key).get? name =
      if Profile.offsetParam = name ∨ s.profile.limitParam = name then none
      else if "key" = name then some key else q.params.get? name) ∧
    (¬ q.Permitted s → (q.execute s).exchanges answer st = [] ∧
      (q.execute s).run answer views st =
        (.error (.unsupported "ad-hoc queries" (String.ofList s.profile.version.text)), views, st)) := by
  have htruthy : q.fallbackKeys.truthy = true := by
    rw [hkeys]
    cases keys with
    | nil => exact absurd rfl hne
    | cons => rfl
  rw [execute, if_pos htruthy, executePerKey_eq hkeys hlimit hskip]
  refine ⟨fun hpermitted responses answers last hreplies hanswers hrows => ?_,
    get?_keyParams q s.profile, fun hpermitted => ?_⟩
  · have hnone : Knows [] [] := fun _ => rfl
    obtain ⟨hrun, hlog⟩ := run_gather views hpermitted hreplies hanswers hrows hnone
    rw [Dialogue.run_bind, Dialogue.exchanges_bind answer _ _ views, hrun, hlog, firsts_eq]
    refine ⟨List.append_nil _, _, rfl, ?_⟩
    cases limit with
    | none =>
      rw [Option.map_none, Window.cut, Window.position_natCast, ← List.drop_eq_drop_min]
      rfl
    | some n => exact Window.cut_natCast _ _ n
  · obtain ⟨hslow, hforbidden⟩ := Classical.not_imp.1 hpermitted
    obtain ⟨key, keys, rfl⟩ := List.exists_cons_of_ne_nil hne
    have hone : (q.single s key).executeOne s = throw (.unsupported "ad-hoc queries"
        (String.ofList s.profile.version.text)) := by
      rw [executeOne, single, if_pos hslow, executeAdHoc, if_neg hforbidden]
      rfl
    rw [List.map_cons, gather, hone]
    exact ⟨rfl, rfl⟩

/-- The second and third of the rows under two grades. -/
def ofGrades : CompiledQuery :=
  { designName := "Person", viewName := .str "find_by_grade", mapSource := .str "m",
    params := [(.str "count", .int 2), (.str "skip", .int 1), (.str "update", .bool false)],
    fallbackKeys := .list [.list [.int 9], .list [.int 11]] }

/-- The answers for the two grades: a row has no id, and the first row comes up again. -/
def gradeAnswers : List (List Value) :=
  [[.dict [(.str "id", .str "p1")], .dict [(.str "value", .int 9)], .dict [(.str "id", .str "p2")]],
    [.dict [(.str "id", .str "p1")], .dict [(.str "id", .str "p3")]]]

/-- The responses with these answers. -/
def gradeResponses : List Value := gradeAnswers.map fun rows => .dict [(.str "rows", .list rows)]

/-- A store of release 0.8. -/
def oldRelease : Setting := { profile := ⟨{ minor := 8 }⟩, designName := "Person" }

theorem execute_perKey_ofGrades :
    (ofGrades.execute oldRelease).exchanges Scripted.answer
        { script := gradeResponses.map fun response => (.view, some (.ok response)) } =
      [(ofGrades.keyRequest oldRelease (.list [.int 9]), .ok (gradeResponses.getD 0 .null)),
        (ofGrades.keyRequest oldRelease (.list [.int 11]), .ok (gradeResponses.getD 1 .null))] ∧
    (ofGrades.execute oldRelease).run Scripted.answer []
        { script := gradeResponses.map fun response => (.view, some (.ok response)) } =
      (.ok (Window.response 2 1 [.dict [(.str "value", .int 9)], .dict [(.str "id", .str "p2")]]),
        [], {}) := by
  have hresponses : List.Forall₂ (fun response rows => rowsOf response = .ok rows) gradeResponses
      gradeAnswers :=
    List.forall₂_map_left_iff.2 <| List.forall₂_same.2 fun rows _ => by
      simp [rowsOf, Value.member?, Value.entries, Value.items, Except.map, bind, Except.bind]
  have hid (id : String) : IsRow (.dict [(.str "id", .str id)]) :=
    ⟨_, rfl, .inr ⟨id, by simp [Entries.getD]⟩⟩
  have hnone : IsRow (.dict [(.str "value", .int 9)]) := ⟨_, rfl, .inl (by simp [Entries.getD])⟩
  have hisRow : ∀ rows ∈ gradeAnswers, ∀ row ∈ rows, IsRow row := by
    simp [gradeAnswers, hid, hnone]
  have hlimit : oldRelease.profile.limitParam = "count" := by decide
  obtain ⟨hlog, rows, hrun, hcut⟩ := (execute_perKey Scripted.answer []
    { script := gradeResponses.map fun response => (.view, some (.ok response)) } ofGrades oldRelease
    rfl (List.cons_ne_nil _ _) (some 2) (some 1) (by simp [ofGrades, hlimit])
    (by simp [ofGrades, Profile.offsetParam])).1 (fun h => absurd h (by decide))
    gradeResponses gradeAnswers {} (.cons rfl (.cons rfl (.nil _))) hresponses hisRow
  refine ⟨hlog, ?_⟩
  have hrows : rows = [.dict [(.str "value", .int 9)], .dict [(.str "id", .str "p2")]] := by
    simp [hcut, firsts, gradeAnswers, repeats, rowId?, Entries.getD]
  rw [hrun, hrows]
  rfl

end CompiledQuery

end ViewFinder
