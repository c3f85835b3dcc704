import ViewFinder.Proofs.CallQuery

/-!
# Miss once, then always hit

Calls of any finders are carried out one after the other on one store (`Turn`, `Run`), whose design
documents are absent at first and changed by the calls alone. Only the registry has written them then
(`Store.Memory.Registered`), so each call is told by its query, and adds one view to one design
document or none to any (`Turn.changes`). What a run keeps (`Run.Kept`) is proved call by call: the
names in a design document are only ever added to, each by a call of its own. A view that was once
there for a query is there for all that follow (`miss_then_hit`).
-/

namespace ViewFinder

open Store Registry

/-! ## Design documents -/

/-- Only the registry has written the design documents. -/
def Store.Memory.Registered (m : Memory) : Prop :=
  ∀ designName, Written (fun _ => True) designName (m.design designName)

/-! ## Calls on a store -/

/-- Is a document saved, or refused to be? -/
def isSave (asked : Request × Answer) : Bool :=
  match asked.1 with
  | .save _ => true
  | _ => false

/-- Was a view asked for, and there? -/
def isAnswer (designName name : String) (asked : Request × Answer) : Bool :=
  match asked.1 with
  | .view path _ => Memory.viewAt? path == some (designName, name) && !missed asked.2
  | _ => false

/-- A call of a finder, on the store as it is then. -/
structure Turn where
  finder : Finder
  call : Finder.Call
  before : Memory

namespace Turn

variable (t : Turn)

/-- The query of the call, if there is one. -/
def query? : Except Fault (Option CompiledQuery) := t.call.query? t.finder

/-- The requests that are made, with their answers. -/
def exchanges : List (Request × Answer) :=
  (t.call.carryOut t.finder).exchanges Memory.answer t.before

/-- Does the call end well? -/
def result : Except Fault Unit :=
  ((t.call.carryOut t.finder).run Memory.answer t.finder.knownViews t.before).1

/-- The store afterwards. -/
def after : Memory :=
  ((t.call.carryOut t.finder).run Memory.answer t.finder.knownViews t.before).2.2

/-- How many documents are saved, or refused to be. -/
def saves : Nat := t.exchanges.countP isSave

/-- The type and the fields that are asked for go by identifiers. -/
structure Identified : Prop where
  name : t.finder.entityType.name.isIdentifier = true
  designName : t.finder.entityType.designName = .ok t.finder.designName
  gives : t.call.GivesIdentifiers

/-- A view that a request misses is saved at once, and found by the same request made again. -/
def FindsView : Prop :=
  ∀ path params answer, (.view path params, answer) ∈ t.exchanges → missed answer = true →
    ∃ got document response again rest,
      t.exchanges = (.view path params, answer) :: (.get (.str (designId t.finder.designName)), got) ::
        (.save document, .ok response) :: (.view path params, again) :: rest ∧
      missed again = false ∧ ∀ asked ∈ rest, CompiledQuery.IsHit path asked

/-- One name is added to one design document, by one save. -/
structure Adds (designName : String) (name : Value) : Prop where
  saves : t.saves = 1
  lacking : name ∉ namesIn (t.before.design designName)
  names : namesIn (t.after.design designName) = namesIn (t.before.design designName) ++ [name]
  others : ∀ other, other ≠ designName → t.after.design other = t.before.design other

/-- A request for a view was answered from it. -/
def Answered (designName name : String) : Prop :=
  ∃ asked ∈ t.exchanges, isAnswer designName name asked = true

/-- If the query is for the view, it asks for that and nothing else, once for each key. -/
def OnlyHits (designName name : String) : Prop :=
  ∀ q, t.query? = .ok (some q) → q.slow.truthy = false → t.finder.designName = designName →
    q.viewName = .str name →
      CompiledQuery.Hits (q.viewPath t.finder.profile) q.requests t.before t.exchanges t.result t.after

section
variable {t}

/-- The call is told by its query. -/
theorem carried (ht : t.Identified) (hregistered : t.before.Registered) :
    t.call.Carried t.finder t.before t.exchanges t.result t.after :=
  (t.call.carryOut_carried (Value.isHyphenated_of_isIdentifier ht.name) ht.designName ht.gives
    (hregistered _)).run _

/-- Requests that are hits save nothing. -/
theorem countP_isSave_of_hits {path : String} {log : List (Request × Answer)}
    (h : ∀ asked ∈ log, CompiledQuery.IsHit path asked) : log.countP isSave = 0 := by
  refine List.countP_eq_zero.2 fun asked hasked => ?_
  obtain ⟨params, hview, -⟩ := h asked hasked
  rw [isSave, hview]
  exact Bool.false_ne_true

/-- What the design documents are after a call: what they were; or what they were with one name added
to one of them; or what they were, because a save was refused. -/
theorem changes (ht : t.Identified) (hregistered : t.before.Registered) :
    (t.saves = 0 ∧ t.after = t.before) ∨
    (∃ q, t.query? = .ok (some q) ∧ t.Adds t.finder.designName q.viewName ∧ t.after.Registered) ∨
    10 ^ Text.maxDigits ≤ (namesIn (t.before.design t.finder.designName)).length ∧
      t.after = t.before := by
  have hcarried := carried ht hregistered
  generalize hlog : t.exchanges = log at hcarried
  generalize t.result = result at hcarried
  generalize hafter : t.after = after at hcarried
  cases hcarried with
  | apart hslow log result after hasked hsame =>
    refine .inl ⟨?_, hsame⟩
    rw [saves, hlog]
    refine List.countP_eq_zero.2 fun asked h => ?_
    rcases hasked asked h with ⟨id, hget⟩ | ⟨path, map, reduce, params, hget⟩ <;>
      · rw [isSave, hget]
        exact Bool.false_ne_true
  | query q name hquery hindexed hname hpath log result after h =>
    cases h with
    | held log result hheld hhits =>
      refine .inl ⟨?_, rfl⟩
      rw [saves, hlog]
      exact countP_isSave_of_hits hhits.asked
    | registered hlacks params got document response again rest result after hextends hhits =>
      have hview : q.view.name = .str name := hname
      have hothers : ∀ other, other ≠ t.finder.designName →
          t.after.design other = t.before.design other := by
        intro other hother
        rw [hafter]
        exact hextends.elsewhere _ fun h => hother (designId_injective h)
      refine .inr (.inl ⟨q, hquery, ⟨?_, ?_, ?_, hothers⟩, fun designName => ?_⟩)
      · have hrest := countP_isSave_of_hits hhits.asked
        rw [saves, hlog, List.countP_cons_of_neg Bool.false_ne_true,
          List.countP_cons_of_neg Bool.false_ne_true, List.countP_cons_of_pos rfl, hrest]
      · rw [hname, ← isSome_viewIn_iff]
        exact fun hsome => absurd hlacks (Option.isSome_iff_ne_none.1 hsome)
      · rw [hafter]
        exact hextends.added.names
      · by_cases hsame : designName = t.finder.designName
        · rw [hsame]
          exact hextends.written
        · rw [← hafter, hothers designName hsame]
          exact hregistered designName
    | refused hlacks hmany params got document e result hfails =>
      exact .inr (.inr ⟨hmany, rfl⟩)

/-- A call leaves only the registry's own views. -/
theorem registered_after (ht : t.Identified) (hregistered : t.before.Registered) :
    t.after.Registered := by
  rcases changes ht hregistered with ⟨-, hafter⟩ | ⟨q, -, -, hafter⟩ | ⟨-, hafter⟩
  · rwa [hafter]
  · exact hafter
  · rwa [hafter]

/-- The names in a design document stay what they are, or one is added. -/
theorem names_after (ht : t.Identified) (hregistered : t.before.Registered) (designName : String) :
    namesIn (t.after.design designName) = namesIn (t.before.design designName) ∨
      ∃ name, t.Adds designName name := by
  rcases changes ht hregistered with ⟨-, hafter⟩ | ⟨q, -, hadds, -⟩ | ⟨-, hafter⟩
  · exact .inl (by rw [hafter])
  · by_cases hsame : designName = t.finder.designName
    · exact .inr ⟨_, hsame ▸ hadds⟩
    · exact .inl (by rw [hadds.others designName hsame])
  · exact .inl (by rw [hafter])

/-- So what was there comes first. -/
theorem prefix_after (ht : t.Identified) (hregistered : t.before.Registered) (designName : String) :
    namesIn (t.before.design designName) <+: namesIn (t.after.design designName) := by
  rcases names_after ht hregistered designName with heq | ⟨name, hadds⟩
  · exact ⟨[], by rw [List.append_nil, heq]⟩
  · rw [hadds.names]
    exact List.prefix_append _ _

/-- A view that is missing is found, or there are too many in the design document. -/
theorem findsView (ht : t.Identified) (hregistered : t.before.Registered) : t.FindsView ∨
    10 ^ Text.maxDigits ≤ (namesIn (t.before.design t.finder.designName)).length := by
  by_cases hmany : 10 ^ Text.maxDigits ≤ (namesIn (t.before.design t.finder.designName)).length
  · exact .inr hmany
  refine .inl fun path params answer hasked hmissed => ?_
  cases carried ht hregistered with
  | apart hslow log result after h hafter =>
    rcases h _ hasked with ⟨id, hget⟩ | ⟨path', map, reduce, params', hget⟩ <;> cases hget
  | query q name hquery hindexed hname hpath log result after h =>
    exact (h.finds hasked hmissed).resolve_right hmany

/-- What a view has answered is there afterwards. -/
theorem mem_namesIn_of_answered (ht : t.Identified) (hregistered : t.before.Registered)
    {designName name : String} (h : t.Answered designName name) :
    .str name ∈ namesIn (t.after.design designName) := by
  obtain ⟨⟨request, answer⟩, hasked, h⟩ := h
  obtain ⟨path, params, rfl, hplace, hfound⟩ : ∃ path params, request = .view path params ∧
      Memory.viewAt? path = some (designName, name) ∧ missed answer = false := by
    cases request with
    | view path params => exact ⟨path, params, rfl, by simpa [isAnswer] using h⟩
    | _ => cases h
  cases carried ht hregistered with
  | apart hslow log result after h hafter =>
    rcases h _ hasked with ⟨id, hget⟩ | ⟨path', map, reduce, params', hget⟩ <;> cases hget
  | query q name' hquery hindexed hname hpath log result after h =>
    obtain rfl := h.path_eq hasked
    cases hpath.symm.trans hplace
    exact isSome_viewIn_iff.1 (h.held_of_found hname hasked hfound)

/-- A view that is there is all that a query for it asks for. -/
theorem onlyHits (ht : t.Identified) (hregistered : t.before.Registered)
    {designName name : String} (h : .str name ∈ namesIn (t.before.design designName)) :
    t.OnlyHits designName name := by
  rintro q hquery hindexed rfl hname
  cases carried ht hregistered with
  | apart hslow log result after _ _ =>
    have hslow' := hslow q hquery
    rw [hindexed] at hslow'
    cases hslow'
  | query q' name' hquery' hindexed' hname' hpath log result after h' =>
    cases hquery.symm.trans hquery'
    rw [hname, Value.str.injEq] at hname'
    subst hname'
    exact h'.hits (isSome_viewIn_iff.2 h)

end

end Turn

/-! ## Runs -/

/-- Calls of identifiers, one after the other. In between other documents may change, but no design
document does. -/
inductive Run (start : Memory) : List Turn → Memory → Prop
  | start : Run start [] start
  | call {turns : List Turn} (t : Turn) (h : Run start turns t.before) (ht : t.Identified) :
    Run start (turns ++ [t]) t.after
  | elsewhere {turns : List Turn} {m after : Memory} (h : Run start turns m)
    (hdesign : ∀ designName, after.design designName = m.design designName) : Run start turns after

/-- What a run keeps, if there were no design documents: they hold the names that calls have added, each
call one at most, after those that were there. -/
structure Run.Kept (turns : List Turn) (last : Memory) : Prop where
  registered : last.Registered
  before : ∀ t ∈ turns, t.Identified ∧ t.before.Registered
  grown : ∀ t ∈ turns, ∀ designName,
    namesIn (t.after.design designName) <+: namesIn (last.design designName)
  order : turns.Pairwise fun t u => ∀ designName,
    namesIn (t.after.design designName) <+: namesIn (u.before.design designName)
  added : ∀ designName, ∀ name ∈ namesIn (last.design designName),
    ∃ t ∈ turns, t.Adds designName name
  atMost : ∀ designName, (namesIn (last.design designName)).length ≤ turns.length

namespace Run

variable {start last : Memory} {turns : List Turn}

/-- One more call keeps it. -/
theorem Kept.call {t : Turn} (h : Kept turns t.before) (ht : t.Identified) :
    Kept (turns ++ [t]) t.after := by
  have hgrown := t.prefix_after ht h.registered
  refine ⟨t.registered_after ht h.registered, ?_, ?_, ?_, fun designName => ?_,
    fun designName => ?_⟩
  · exact List.forall_mem_append.2 ⟨h.before, List.forall_mem_singleton.2 ⟨ht, h.registered⟩⟩
  · refine List.forall_mem_append.2 ⟨fun u hu designName => ?_, List.forall_mem_singleton.2
      fun designName => List.prefix_rfl⟩
    exact (h.grown u hu designName).trans (hgrown designName)
  · refine List.pairwise_append.2 ⟨h.order, List.pairwise_singleton _ _, fun u hu t' ht' => ?_⟩
    rw [List.mem_singleton.1 ht']
    exact h.grown u hu
  · intro name hname
    have hthere (h' : name ∈ namesIn (t.before.design designName)) :
        ∃ u ∈ turns ++ [t], u.Adds designName name := by
      obtain ⟨u, hu, hadds⟩ := h.added designName name h'
      exact ⟨u, List.mem_append_left _ hu, hadds⟩
    rcases t.names_after ht h.registered designName with heq | ⟨other, hadds⟩
    · exact hthere (heq ▸ hname)
    · rw [hadds.names, List.mem_append, List.mem_singleton] at hname
      rcases hname with hname | rfl
      · exact hthere hname
      · exact ⟨t, List.mem_append_right _ (List.mem_singleton_self t), hadds⟩
  · have hbefore := h.atMost designName
    rw [List.length_append, List.length_singleton]
    rcases t.names_after ht h.registered designName with heq | ⟨other, hadds⟩
    · rw [heq]
      exact Nat.le_succ_of_le hbefore
    · rw [hadds.names, List.length_append, List.length_singleton]
      exact Nat.succ_le_succ hbefore

/-- Without design documents at first, every run keeps it. -/
theorem kept (hrun : Run start turns last)
    (habsent : ∀ designName, start.design designName = none) : Kept turns last := by
  induction hrun with
  | start =>
    have hempty (designName : String) : namesIn (start.design designName) = [] := by
      rw [habsent]
      rfl
    refine ⟨fun designName => ?_, nofun, nofun, .nil, fun designName name hname => ?_,
      fun designName => ?_⟩
    · rw [habsent]
      exact .absent
    · rw [hempty] at hname
      cases hname
    · rw [hempty]
      exact Nat.le_refl 0
  | call t h ht ih => exact ih.call ht
  | elsewhere h hdesign ih =>
    refine ⟨fun designName => ?_, ih.before, fun t ht designName => ?_, ih.order,
      fun designName => ?_, fun designName => ?_⟩ <;> rw [hdesign]
    · exact ih.registered designName
    · exact ih.grown t ht designName
    · exact ih.added designName
    · exact ih.atMost designName

/-- No call adds a name that an earlier one has added. -/
theorem Kept.pairwise_adds (h : Kept turns last) : turns.Pairwise fun t u =>
    ∀ designName name, t.Adds designName name → ¬ u.Adds designName name := by
  refine h.order.imp fun {t u} hgrown designName name ht hu => ?_
  refine hu.lacking ((hgrown designName).subset ?_)
  rw [ht.names]
  exact List.mem_append_right _ (List.mem_singleton_self name)

/-- Each name in a design document was added by just one call. -/
theorem Kept.existsUnique_adds (h : Kept turns last) {designName : String} {name : Value}
    (hname : name ∈ namesIn (last.design designName)) :
    ∃! i : Fin turns.length, (turns.get i).Adds designName name := by
  obtain ⟨t, ht, hadds⟩ := h.added designName name hname
  obtain ⟨i, rfl⟩ := List.mem_iff_get.1 ht
  have hpairwise := List.pairwise_iff_getElem.1 h.pairwise_adds
  refine ⟨i, hadds, fun j hj => ?_⟩
  rcases Nat.lt_trichotomy j i with hlt | heq | hlt
  · exact absurd hadds (hpairwise j i j.isLt i.isLt hlt designName name hj)
  · exact Fin.ext heq
  · exact absurd hj (hpairwise i j i.isLt j.isLt hlt designName name hadds)

end Run

/-- In a run of calls of identifiers, on a store without design documents, a view that is missing is saved
at once and found by the same request made again, so no query fails because its view is missing; each
save adds one name to one design document, and each name in a design document was added by one call,
with one save; and once a view has answered, each later query for it asks for nothing but that view,
once, or once for each of its fallback keys, and finds it. A save can be refused only after more calls
than a revision can count. -/
theorem miss_then_hit {start last : Memory} {turns : List Turn} (hrun : Run start turns last)
    (habsent : ∀ designName, start.design designName = none) :
    (∀ t ∈ turns, t.FindsView ∨ 10 ^ Text.maxDigits ≤ turns.length) ∧
    (∀ t ∈ turns, (t.saves = 0 ∧ ∀ designName, t.after.design designName = t.before.design designName) ∨
      (∃ q, t.query? = .ok (some q) ∧ t.Adds t.finder.designName q.viewName) ∨
      10 ^ Text.maxDigits ≤ turns.length) ∧
    (∀ designName, ∀ name ∈ namesIn (last.design designName),
      ∃! i : Fin turns.length, (turns.get i).Adds designName name) ∧
    turns.Pairwise fun t u => ∀ designName name, t.Answered designName name →
      u.OnlyHits designName name := by
  have hkept := hrun.kept habsent
  have hfew : ∀ t ∈ turns, ∀ designName,
      (namesIn (t.before.design designName)).length ≤ turns.length := by
    intro t ht designName
    obtain ⟨hidentified, hregistered⟩ := hkept.before t ht
    have hgrown := (t.prefix_after hidentified hregistered designName).trans
      (hkept.grown t ht designName)
    exact Nat.le_trans hgrown.length_le (hkept.atMost designName)
  refine ⟨fun t ht => ?_, fun t ht => ?_, fun designName name hname =>
    hkept.existsUnique_adds hname, ?_⟩
  · obtain ⟨hidentified, hregistered⟩ := hkept.before t ht
    exact (t.findsView hidentified hregistered).imp_right fun hmany =>
      Nat.le_trans hmany (hfew t ht _)
  · obtain ⟨hidentified, hregistered⟩ := hkept.before t ht
    rcases t.changes hidentified hregistered with ⟨hsaves, hafter⟩ | ⟨q, hq, hadds, -⟩ | ⟨hmany, -⟩
    · exact .inl ⟨hsaves, fun designName => by rw [hafter]⟩
    · exact .inr (.inl ⟨q, hq, hadds⟩)
    · exact .inr (.inr (Nat.le_trans hmany (hfew t ht _)))
  · refine hkept.order.imp_of_mem fun {t u} ht hu hgrown designName name hanswered => ?_
    obtain ⟨hidentified, hregistered⟩ := hkept.before t ht
    obtain ⟨hidentified', hregistered'⟩ := hkept.before u hu
    exact u.onlyHits hidentified' hregistered' ((hgrown designName).subset
      (t.mem_namesIn_of_answered hidentified hregistered hanswered))

/-! ## People by their grade -/

/-- People are found by their grade. -/
def gradeFound (before : Memory) : Turn :=
  ⟨personFinder, .find (.dict [(.str "conditions", .dict byGrade)]), before⟩

/-- People of a grade are counted. -/
def gradeCounted (before : Memory) : Turn :=
  ⟨personFinder, .count (.dict [(.str "conditions", .dict byGrade)]), before⟩

theorem options?_gradeFound (before : Memory) : (gradeFound before).call.options? =
    .ok (some { conditions := .dict byGrade }) := by
  rw [gradeFound, Finder.Call.options?, Options.ofValue_conditions]
  rfl

theorem options?_gradeCounted (before : Memory) : (gradeCounted before).call.options? =
    .ok (some { conditions := .dict byGrade }) := by
  rw [gradeCounted, Finder.Call.options?, Options.ofValue_conditions]
  rfl

/-- Both calls go by identifiers. -/
theorem identified_byGrade {t : Turn} (hfinder : t.finder = personFinder)
    (ho : t.call.options? = .ok (some { conditions := .dict byGrade })) : t.Identified := by
  refine ⟨by rw [hfinder]; rfl, by rw [hfinder]; rfl, fun o ho' names hnames n hn => ?_⟩
  cases ho.symm.trans ho'
  cases hnames
  rw [List.mem_singleton.1 hn]
  rfl

theorem miss_then_hit_people : ∃ t u : Turn,
    Run people [t, u] u.after ∧ t.FindsView ∧ t.exchanges.length = 4 ∧
    (∃! i : Fin 2, ([t, u].get i).Adds "person" (.str "find_by_grade")) ∧
    t.Answered "person" "find_by_grade" ∧ u.exchanges.length = 1 ∧ u.after = u.before := by
  have hfirst := Run.call (gradeFound people) .start (identified_byGrade rfl (options?_gradeFound _))
  have hrun := Run.call (gradeCounted (gradeFound people).after) hfirst
    (identified_byGrade rfl (options?_gradeCounted _))
  obtain ⟨hfinds, -, hunique, hhits⟩ := miss_then_hit hrun absent_people
  have hfew : 2 < 10 ^ Text.maxDigits :=
    Nat.lt_trans (show 2 < Text.maxDigits by decide) (Nat.lt_pow_self (by decide))
  have hname : .str "find_by_grade" ∈
      namesIn ((gradeCounted (gradeFound people).after).after.design "person") := by
    rw [← isSome_viewIn_iff]
    decide +kernel
  have hanswered : (gradeFound people).Answered "person" "find_by_grade" :=
    List.any_eq_true.1 (by decide +kernel)
  have honly := (List.pairwise_cons.1 hhits).1 _ (List.mem_singleton_self _) _ _ hanswered
  obtain ⟨q, hq, hindexed, hview, hrequests⟩ : ∃ q, Query.count person ⟨{ minor := 9 }⟩
      { conditions := .dict byGrade } = .ok q ∧ q.slow.truthy = false ∧
        q.viewName = .str "find_by_grade" ∧ q.requests = 1 := ⟨_, rfl, rfl, rfl, by decide +kernel⟩
  have hhit := honly q ((Finder.Call.query?_iff (options?_gradeCounted _)).2 hq) hindexed rfl hview
  rw [hrequests] at hhit
  obtain ⟨u, hwell⟩ : ∃ u, (gradeCounted (gradeFound people).after).result = .ok u := by
    have hok : (gradeCounted (gradeFound people).after).result.isOk = true := by decide +kernel
    cases hresult : (gradeCounted (gradeFound people).after).result with
    | ok u => exact ⟨u, rfl⟩
    | error e =>
      rw [hresult] at hok
      cases hok
  refine ⟨_, _, hrun, ?_, by decide +kernel, hunique _ _ hname, hanswered,
    hhit.exactly u hwell, hhit.store⟩
  exact (hfinds _ (List.mem_cons_self ..)).resolve_right (Nat.not_le_of_lt hfew)

end ViewFinder
