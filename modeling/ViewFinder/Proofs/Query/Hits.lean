import ViewFinder.Proofs.Query.Execution
import ViewFinder.Proofs.Registry.WrittenViews

/-!
# The requests of a query

A query whose view is there asks for that view and for nothing else: once, or once for each of its
fallback keys (`CompiledQuery.Asks.hits`). One whose view is missing registers it after its first
request, makes this once more and goes on in the same way (`CompiledQuery.execute_asks`). Both hold
where only the registry has written the design document.
-/

namespace ViewFinder

open Store Registry

namespace CompiledQuery

/-- A request for the view of a path that finds it. -/
def IsHit (path : String) (asked : Request × Answer) : Prop :=
  ∃ params, asked.1 = .view path params ∧ missed asked.2 = false

/-- A request that goes to no stored view. -/
def IsAdHoc (asked : Request × Answer) : Prop :=
  ∃ path map reduce params, asked.1 = .adHoc path map reduce params

/-- All requests are of one kind: so many of them at most, and as many if all went well. The store is
left as it was. -/
structure Reads (p : Request × Answer → Prop) (n : Nat) (m : Memory) {α : Type}
    (log : List (Request × Answer)) (result : Except Fault α) (after : Memory) : Prop where
  store : after = m
  asked : ∀ asked ∈ log, p asked
  atMost : log.length ≤ n
  exactly : ∀ a, result = .ok a → log.length = n

/-- Nothing was asked for but the view of a path, which was there each time. -/
abbrev Hits (path : String) (n : Nat) (m : Memory) {α : Type} : Dialogue.Post α :=
  Reads (IsHit path) n m

/-- What a query asks for: its view only, which is there; or its view, which is missing, so that it is
registered and the same request made again; or this only to be refused, because there are more
views than a revision can count. -/
inductive Asks (kind : ViewDefinition → Prop) (q : CompiledQuery) (s : Setting) (name : String)
    (m : Memory) (n : Nat) {α : Type} : Dialogue.Post α
  | held (log : List (Request × Answer)) (result : Except Fault α)
    (hheld : log = [] ∨ (viewIn (m.documents.get? (designId s.designName)) name).isSome = true)
    (hhits : Hits (q.viewPath s.profile) n m log result m) : Asks kind q s name m n log result m
  | registered (hlacks : viewIn (m.documents.get? (designId s.designName)) name = none)
    (params : Entries) (got : Answer) (document response : Value) (again : Answer)
    (log : List (Request × Answer)) (result : Except Fault α) (after : Memory)
    (hextends : Extends kind s.designName m q.view after)
    (hhits : Hits (q.viewPath s.profile) n after
      ((.view (q.viewPath s.profile) params, again) :: log) result after) :
    Asks kind q s name m n ((.view (q.viewPath s.profile) params,
        .error (.notFound (.view (q.viewPath s.profile)))) ::
      (.get (.str (designId s.designName)), got) :: (.save document, .ok response) ::
      (.view (q.viewPath s.profile) params, again) :: log) result after
  | refused (hlacks : viewIn (m.documents.get? (designId s.designName)) name = none)
    (hmany : 10 ^ Text.maxDigits ≤ (namesIn (m.documents.get? (designId s.designName))).length)
    (params : Entries) (got : Answer) (document : Value) (e : Fault) (result : Except Fault α)
    (hfails : ∀ a, result ≠ .ok a) :
    Asks kind q s name m n [(.view (q.viewPath s.profile) params,
        .error (.notFound (.view (q.viewPath s.profile)))),
      (.get (.str (designId s.designName)), got), (.save document, .error e)] result m

section
variable {α β : Type} {p : Request × Answer → Prop} {n : Nat} {m after : Memory} {log : List (Request × Answer)}
  {result : Except Fault α} {other : Except Fault β}

/-- Nothing is asked for. -/
theorem reads_nil (hfails : ∀ a, result = .ok a → n = 0) : Reads p n m [] result m :=
  ⟨rfl, nofun, Nat.zero_le n, fun a ha => (hfails a ha).symm⟩

theorem reads_error (e : Fault) : Reads p n m [] (.error e : Except Fault α) m :=
  reads_nil fun a ha => by cases ha

/-- What is made of the result does not matter, as long as there is one only if there was. -/
theorem Reads.congr (h : Reads p n m log result after)
    (hok : ∀ b, other = .ok b → ∃ a, result = .ok a) : Reads p n m log other after :=
  ⟨h.store, h.asked, h.atMost, fun b hb => by
    obtain ⟨a, ha⟩ := hok b hb
    exact h.exactly a ha⟩

/-- One part asks after the other. -/
theorem Reads.append {k : Nat} {last : Memory} {rest : List (Request × Answer)} {a : α}
    (h : Reads p n m log (.ok a) after) (hrest : Reads p k after rest other last) :
    Reads p (n + k) m (log ++ rest) other last where
  store := hrest.store.trans h.store
  asked := List.forall_mem_append.2 ⟨h.asked, hrest.asked⟩
  atMost := by
    rw [List.length_append]
    exact Nat.add_le_add h.atMost hrest.atMost
  exactly b hb := by
    rw [List.length_append, h.exactly a rfl, hrest.exactly b hb]

/-- After a fault nothing more is asked for. -/
theorem Reads.failed (k : Nat) (h : Reads p n m log result after) (e : Fault) :
    Reads p (n + k) m log (.error e : Except Fault β) after :=
  ⟨h.store, h.asked, Nat.le_trans h.atMost (Nat.le_add_right n k), nofun⟩

variable {kind : ViewDefinition → Prop} {q : CompiledQuery} {s : Setting} {name : String}

theorem Asks.congr (h : Asks kind q s name m n log result after)
    (hok : ∀ b, other = .ok b → ∃ a, result = .ok a) : Asks kind q s name m n log other after := by
  cases h with
  | held log result hheld hhits => exact .held log other hheld (hhits.congr hok)
  | registered hlacks params got document response again log result after hextends hhits =>
    exact .registered hlacks params got document response again log other after hextends
      (hhits.congr hok)
  | refused hlacks hmany params got document e result hfails =>
    exact .refused hlacks hmany params got document e other fun b hb => by
      obtain ⟨a, ha⟩ := hok b hb
      exact hfails a ha

/-- What follows a query finds the view there. -/
theorem Asks.append {k : Nat} {last : Memory} {rest : List (Request × Answer)} {a : α}
    (h : Asks kind q s name m n log (.ok a) after) (hpositive : log ≠ [])
    (hrest : Hits (q.viewPath s.profile) k after rest other last) :
    Asks kind q s name m (n + k) (log ++ rest) other last := by
  have hsame := hrest.store
  subst hsame
  cases h with
  | held log result hheld hhits =>
    exact .held _ other (.inr (hheld.resolve_left hpositive)) (hhits.append hrest)
  | registered hlacks params got document response again log result after hextends hhits =>
    exact .registered hlacks params got document response again _ other last hextends
      (hhits.append hrest)
  | refused hlacks hmany params got document e result hfails => exact absurd rfl (hfails a)

/-- After a fault nothing more is asked for. -/
theorem Asks.failed (k : Nat) (h : Asks kind q s name m n log result after) (e : Fault) :
    Asks kind q s name m (n + k) log (.error e : Except Fault β) after := by
  cases h with
  | held log result hheld hhits => exact .held log _ hheld (hhits.failed k e)
  | registered hlacks params got document response again log result after hextends hhits =>
    exact .registered hlacks params got document response again log _ after hextends
      (hhits.failed k e)
  | refused hlacks hmany params got document e' result hfails =>
    exact .refused hlacks hmany params got document e' _ nofun

/-- Once there is an answer, the view is there. -/
theorem Asks.held_after {a : α} (h : Asks kind q s name m n log (.ok a) after) (hasked : log ≠ [])
    (hname : q.viewName = .str name)
    (hwritten : Written kind s.designName (m.documents.get? (designId s.designName))) :
    Written kind s.designName (after.documents.get? (designId s.designName)) ∧
      (viewIn (after.documents.get? (designId s.designName)) name).isSome = true := by
  cases h with
  | held log result hheld hhits => exact ⟨hwritten, hheld.resolve_left hasked⟩
  | registered hlacks params got document response again log result after hextends hhits =>
    refine ⟨hextends.written, ?_⟩
    rw [hextends.added.held name hname]
    rfl
  | refused hlacks hmany params got document e result hfails => exact absurd rfl (hfails a)

/-- Only the view of the query is asked for. -/
theorem Asks.path_eq (h : Asks kind q s name m n log result after) {path : String}
    {params : Entries} {answer : Answer} (hasked : (.view path params, answer) ∈ log) :
    path = q.viewPath s.profile := by
  have hhit {log : List (Request × Answer)} (h : ∀ asked ∈ log, IsHit (q.viewPath s.profile) asked)
      (hasked : (.view path params, answer) ∈ log) : path = q.viewPath s.profile := by
    obtain ⟨params, hview, -⟩ := h _ hasked
    exact (Request.view.inj hview).1
  cases h with
  | held log result _ hhits => exact hhit hhits.asked hasked
  | registered _ params got document response again log result after _ hhits =>
    simp only [List.mem_cons, Prod.mk.injEq, reduceCtorEq, false_and, false_or] at hasked
    rcases hasked with ⟨hview, -⟩ | hasked
    · exact (Request.view.inj hview).1
    · exact hhit hhits.asked (by simpa using hasked)
  | refused _ _ params got document e result _ =>
    simp only [List.mem_cons, Prod.mk.injEq, reduceCtorEq, false_and, or_false, List.not_mem_nil]
      at hasked
    exact (Request.view.inj hasked.1).1

/-- A request that misses the view is the first, and what follows it saves the view and makes it again;
unless there are too many views. -/
theorem Asks.finds (h : Asks kind q s name m n log result after) {path : String}
    {params : Entries} {answer : Answer} (hasked : (.view path params, answer) ∈ log)
    (hmissed : missed answer = true) :
    (∃ got document response again rest,
      log = (.view path params, answer) :: (.get (.str (designId s.designName)), got) ::
        (.save document, .ok response) :: (.view path params, again) :: rest ∧
      missed again = false ∧ ∀ asked ∈ rest, IsHit path asked) ∨
    10 ^ Text.maxDigits ≤ (namesIn (m.documents.get? (designId s.designName))).length := by
  obtain rfl := h.path_eq hasked
  have hnot {log : List (Request × Answer)} (h : ∀ asked ∈ log, IsHit (q.viewPath s.profile) asked)
      (hasked : (.view (q.viewPath s.profile) params, answer) ∈ log) : False := by
    obtain ⟨params, -, hfound⟩ := h _ hasked
    exact absurd hmissed (Bool.not_eq_true _ ▸ hfound)
  cases h with
  | held log result _ hhits => exact (hnot hhits.asked hasked).elim
  | registered _ params' got document response again rest result after _ hhits =>
    obtain ⟨⟨params'', hview, hfound⟩, hrest⟩ := List.forall_mem_cons.1 hhits.asked
    simp only [List.mem_cons, Prod.mk.injEq, reduceCtorEq, false_and, false_or] at hasked
    rcases hasked with ⟨hview, rfl⟩ | hasked
    · obtain ⟨-, rfl⟩ := Request.view.inj hview
      exact .inl ⟨got, document, response, again, rest, rfl, hfound, hrest⟩
    · exact (hnot hhits.asked (by simpa using hasked)).elim
  | refused _ hmany => exact .inr hmany

/-- If the view has answered, it is there afterwards. -/
theorem Asks.held_of_found (h : Asks kind q s name m n log result after)
    (hname : q.viewName = .str name) {path : String} {params : Entries} {answer : Answer}
    (hasked : (.view path params, answer) ∈ log) (hfound : missed answer = false) :
    (viewIn (after.documents.get? (designId s.designName)) name).isSome = true := by
  cases h with
  | held log result hheld _ => exact hheld.resolve_left (List.ne_nil_of_mem hasked)
  | registered _ params got document response again log result after hextends _ =>
    rw [hextends.added.held name hname]
    rfl
  | refused _ _ params got document e result _ =>
    simp only [List.mem_cons, Prod.mk.injEq, reduceCtorEq, false_and, or_false, List.not_mem_nil]
      at hasked
    rw [hasked.2] at hfound
    cases hfound

/-- Where the view is there, it is there each time it is asked for. -/
theorem Asks.hits (h : Asks kind q s name m n log result after)
    (hheld : (viewIn (m.documents.get? (designId s.designName)) name).isSome = true) :
    Hits (q.viewPath s.profile) n m log result after := by
  have hsome : viewIn (m.documents.get? (designId s.designName)) name ≠ none :=
    Option.isSome_iff_ne_none.1 hheld
  cases h with
  | held log result _ hhits => exact hhits
  | registered hlacks => exact absurd hlacks hsome
  | refused hlacks => exact absurd hlacks hsome

end

/-! ## The parts of a query -/

/-- Queries are sent one after the other. What the rows are, and which of them are fresh, does not
matter for what is asked for. -/
theorem leads_gather_cons {s : Setting} {r : CompiledQuery} {qs : List CompiledQuery} {m : Memory}
    {seen : List Value} {post : Dialogue.Post (List Value)}
    (h : (r.executeOne s).Leads m fun log result after => (∀ e, post log (.error e) after) ∧
      ∀ response, result = .ok response → ∀ seen, (gather s seen qs).Leads after
        (Dialogue.Post.made fun rest => post (log ++ rest))) :
    (gather s seen (r :: qs)).Leads m post := by
  rw [gather]
  refine Dialogue.Leads.bind (h.mono ?_)
  rintro log result after ⟨hfailed, hrest⟩
  cases result with
  | error e => exact hfailed e
  | ok response =>
    have hstop (e : Fault) : post (log ++ []) (.error e) after := by
      rw [List.append_nil]
      exact hfailed e
    refine Dialogue.leads_lift (fun rows _ => ?_) fun e _ => hstop e
    refine Dialogue.leads_lift (fun fresh _ => ?_) fun e _ => hstop e
    exact (hrest response rfl fresh.2).make fun _ => ⟨_, rfl⟩

/-- Queries that ask in one way do so one after the other. -/
theorem gather_reads {p : Request × Answer → Prop} {s : Setting} {m : Memory}
    {qs : List CompiledQuery} (h : ∀ r ∈ qs, (r.executeOne s).Leads m (Reads p 1 m))
    (seen : List Value) : (gather s seen qs).Leads m (Reads p qs.length m) := by
  induction qs generalizing seen with
  | nil => exact Dialogue.leads_done (reads_nil fun _ _ => rfl)
  | cons r qs ih =>
    obtain ⟨hr, hqs⟩ := List.forall_mem_cons.1 h
    rw [List.length_cons, Nat.add_comm]
    refine leads_gather_cons (hr.mono fun log result after h => ⟨h.failed qs.length, ?_⟩)
    rintro response rfl seen
    have hstore := h.store
    subst hstore
    exact (ih hqs seen).mono fun rest others last hrest rows hrows => h.append (hrest.congr hrows)

/-! ## One query -/

/-- A query for the same view. -/
structure SameView (q r : CompiledQuery) : Prop where
  view : r.view = q.view
  designName : r.designName = q.designName
  slow : r.slow = q.slow

theorem SameView.viewPath {q r : CompiledQuery} (h : SameView q r) (p : Profile) :
    r.viewPath p = q.viewPath p := by
  have hname : r.viewName = q.viewName := congrArg ViewDefinition.name h.view
  rw [CompiledQuery.viewPath, CompiledQuery.viewPath, h.designName, hname]

/-- The queries for one key each are for the view of the query. -/
theorem sameView_of_perKey {q : CompiledQuery} {qs : List CompiledQuery} (h : q.perKey = .ok qs) :
    ∀ r ∈ qs, SameView q r := by
  obtain ⟨keys, -, hqs⟩ := Fault.bind_eq_ok_iff.1 h
  cases hqs
  exact List.forall_mem_map.2 fun key _ => ⟨rfl, rfl, rfl⟩

section
variable {kind : ViewDefinition → Prop} {q : CompiledQuery} {s : Setting} {name : String}
  (hview : Proper q.view) (hkind : kind q.view) (hname : q.viewName = .str name)
  (hpath : Memory.viewAt? (q.viewPath s.profile) = some (s.designName, name))
  (hindexed : q.slow.truthy = false)
include hview hkind hname hpath hindexed

section
variable {m : Memory}
  (hwritten : Written kind s.designName (m.documents.get? (designId s.designName)))
include hwritten

/-- One query asks for its view once. -/
theorem SameView.executeOne_asks {r : CompiledQuery} (hr : SameView q r) :
    (r.executeOne s).Leads m fun log result after =>
      log ≠ [] ∧ Asks kind q s name m 1 log result after := by
  have hname' : r.viewName = .str name := (congrArg ViewDefinition.name hr.view).trans hname
  have hrequest : r.viewRequest s = .view (q.viewPath s.profile) r.params := by
    rw [viewRequest, hr.viewPath]
  have hone (documents : Entries) (map reduce : Value) (m : Memory) :
      Hits (q.viewPath s.profile) 1 m
        [(r.viewRequest s, Index.answer documents map reduce r.params)]
        (Index.answer documents map reduce r.params) m := by
    refine ⟨rfl, List.forall_mem_singleton.2 ⟨r.params, hrequest, ?_⟩, Nat.le_refl 1,
      fun _ _ => rfl⟩
    show missed (Index.answer documents map reduce r.params) = false
    cases hanswer : Index.answer documents map reduce r.params with
    | ok response => rfl
    | error e => exact Index.noMiss_answer _ _ _ _ e hanswer
  rw [← hr.view] at hview hkind
  rw [← hr.viewPath] at hpath
  rw [executeOne, hr.slow, hindexed, if_neg (by decide)]
  refine (executeIndexed_leads hwritten hview hkind hname' hpath).mono fun log result after h => ?_
  cases h with
  | held view hstored =>
    exact ⟨List.cons_ne_nil _ _, .held _ _ (.inr (by rw [hstored]; rfl)) (hone ..)⟩
  | registered hlacks got document response after hextends =>
    refine ⟨List.cons_ne_nil _ _, ?_⟩
    have hhits := hone m.documents r.mapSource r.reduceSource after
    rw [hr.view] at hextends
    rw [hrequest] at hhits ⊢
    rw [hr.viewPath]
    exact .registered hlacks r.params got document response _ [] _ after hextends hhits
  | refused hlacks hmany got document e =>
    refine ⟨List.cons_ne_nil _ _, ?_⟩
    rw [hrequest, hr.viewPath]
    refine .refused hlacks hmany r.params got document e _ fun a ha => ?_
    cases ha

/-- Where the view is there it asks for nothing else. -/
theorem SameView.executeOne_hits {r : CompiledQuery} (hr : SameView q r)
    (hheld : (viewIn (m.documents.get? (designId s.designName)) name).isSome = true) :
    (r.executeOne s).Leads m (Hits (q.viewPath s.profile) 1 m) :=
  (hr.executeOne_asks hview hkind hname hpath hindexed hwritten).mono
    fun _ _ _ ⟨_, h⟩ => h.hits hheld

end

/-! ## One query for each key -/

/-- Of queries for one view the first registers it if it is missing. -/
theorem gather_asks {qs : List CompiledQuery} (hqs : ∀ r ∈ qs, SameView q r) {m : Memory}
    (hwritten : Written kind s.designName (m.documents.get? (designId s.designName)))
    (seen : List Value) :
    (gather s seen qs).Leads m (Asks kind q s name m qs.length) := by
  cases qs with
  | nil => exact Dialogue.leads_done (.held [] _ (.inl rfl) (reads_nil fun _ _ => rfl))
  | cons r qs =>
    obtain ⟨hr, hqs⟩ := List.forall_mem_cons.1 hqs
    rw [List.length_cons, Nat.add_comm]
    refine leads_gather_cons ((hr.executeOne_asks hview hkind hname hpath hindexed hwritten).mono
      fun log result after ⟨hasked, h⟩ => ⟨h.failed qs.length, ?_⟩)
    rintro response rfl seen
    obtain ⟨hwritten', hheld⟩ := h.held_after hasked hname hwritten
    exact (gather_reads (fun r hr => (hqs r hr).executeOne_hits hview hkind hname hpath hindexed
      hwritten' hheld) seen).mono fun rest others last hrest rows hrows => h.append hasked (hrest.congr hrows)

end

/-! ## Whole queries -/

/-- How many requests for its view a query comes to: one for each fallback key, or a single one. -/
def requests (q : CompiledQuery) : Nat :=
  if q.fallbackKeys.truthy then (q.perKey.toOption.getD []).length else 1

/-- A query is sent once, or once for each fallback key. What is made of the rows does not matter for what
is asked for. -/
theorem leads_execute {q : CompiledQuery} {s : Setting} {m : Memory} {post : Dialogue.Post Value}
    (hone : q.requests = 1 → (q.executeOne s).Leads m post) (hnone : ∀ e, post [] (.error e) m)
    (hgather : ∀ rs : List CompiledQuery, (∀ r ∈ rs, SameView q r) → rs.length = q.requests →
      (gather s [] rs).Leads m post.made) :
    (q.execute s).Leads m post := by
  rw [requests] at hone hgather
  rw [execute]
  split
  · rename_i hkeys
    rw [if_pos hkeys] at hgather
    refine Dialogue.leads_lift (fun limit _ => ?_) fun e _ => hnone e
    refine Dialogue.leads_lift (fun skip _ => ?_) fun e _ => hnone e
    refine Dialogue.leads_lift (fun qs hqs => ?_) fun e _ => hnone e
    have hsame : ∀ r ∈ qs.map fun r : CompiledQuery =>
        { r with params := (r.params.erase s.profile.limitParam).erase Profile.offsetParam },
        SameView q r :=
      List.forall_mem_map.2 fun r hr => have h := sameView_of_perKey hqs r hr
        ⟨h.view, h.designName, h.slow⟩
    rw [hqs] at hgather
    exact (hgather _ hsame (List.length_map _)).make fun _ => ⟨_, rfl⟩
  · rename_i hkeys
    exact hone (if_neg hkeys)

/-- A query without a stored view goes to none. -/
theorem execute_slow {q : CompiledQuery} {s : Setting} {m : Memory} (hslow : q.slow.truthy = true) :
    (q.execute s).Leads m (Reads IsAdHoc q.requests m) := by
  have hone (r : CompiledQuery) (hr : SameView q r) :
      (r.executeOne s).Leads m (Reads IsAdHoc 1 m) := by
    rw [executeOne, hr.slow, hslow, if_pos rfl, executeAdHoc]
    split
    · exact Dialogue.leads_request ⟨rfl, List.forall_mem_singleton.2 ⟨_, _, _, _, rfl⟩,
        Nat.le_refl 1, fun _ _ => rfl⟩
    · exact Dialogue.leads_done (reads_error _)
  refine leads_execute (fun h => ?_) (fun e => reads_error e) fun rs hrs hlength => ?_
  · rw [h]
    exact hone q ⟨rfl, rfl, rfl⟩
  · rw [← hlength]
    exact (gather_reads (fun r hr => hone r (hrs r hr)) []).mono
      fun log rows after h response hresponse => h.congr hresponse

section
variable {kind : ViewDefinition → Prop} {q : CompiledQuery} {s : Setting} {name : String}
  (hview : Proper q.view) (hkind : kind q.view) (hname : q.viewName = .str name)
  (hpath : Memory.viewAt? (q.viewPath s.profile) = some (s.designName, name))
  (hindexed : q.slow.truthy = false) {m : Memory}
  (hwritten : Written kind s.designName (m.documents.get? (designId s.designName)))
include hview hkind hname hpath hindexed hwritten

/-- A query asks for its view as often as it has keys, and registers it once if it is missing. -/
theorem execute_asks : (q.execute s).Leads m (Asks kind q s name m q.requests) := by
  refine leads_execute (fun h => ?_) (fun e => .held [] _ (.inl rfl) (reads_error e))
    fun rs hrs hlength => ?_
  · rw [h]
    have hsame : SameView q q := ⟨rfl, rfl, rfl⟩
    exact (hsame.executeOne_asks hview hkind hname hpath hindexed hwritten).mono fun _ _ _ h => h.2
  · rw [← hlength]
    exact (gather_asks hview hkind hname hpath hindexed hrs hwritten []).mono
      fun log rows after h response hresponse => h.congr hresponse

end

end CompiledQuery

end ViewFinder
