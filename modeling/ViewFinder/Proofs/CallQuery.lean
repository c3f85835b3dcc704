import ViewFinder.Proofs.OwnIndex
import ViewFinder.Proofs.Query.Hits

/-!
# The query of a call

A call of a finder compiles its options to one query at most (`Finder.Call.query?`), and asks for nothing
but what this asks for: what is made of the response asks for nothing more. A call without a query
loads a document by its id, if it does anything (`Finder.Call.carryOut_leads`). So what a call of
identifiers asks for on a store whose design documents only the registry has written is told by its
query (`Finder.Call.carryOut_carried`).
-/

namespace ViewFinder

open Store Registry

/-- The names that the options give for the key are identifiers. -/
def Options.GivesIdentifiers (o : Options) : Prop :=
  ∀ names, Query.givenNames o = .ok names → ∀ n ∈ names, n.isIdentifier = true

namespace Query

section
variable {e : EntityType} {o : Options}

/-- If the names are identifiers, so are the fields of the key. -/
theorem isIdentifier_of_searchFields (hgives : o.GivesIdentifiers) {fields : List String}
    (h : searchFields e o = .ok fields) : ∀ f ∈ fields, Name.isIdentifier f = true := by
  cases hgiven : givenNames o with
  | error fault =>
    rw [searchFields, hgiven] at h
    cases h
  | ok names =>
    obtain ⟨fields', hsearched, -, hmem⟩ := exists_searchFields e hgiven
    cases hsearched.symm.trans h
    intro f hf
    rcases hmem f hf with rfl | ⟨n, hn, rfl⟩
    · exact isIdentifier_defaultKeyField e
    · obtain ⟨name, rfl, hid⟩ := Value.exists_of_isIdentifier (hgives names hgiven n hn)
      exact Name.isIdentifier_normalizeField hid

/-- A query of such names goes to a view of the type's own design document. -/
theorem exists_view_of_compiled (he : e.name.isHyphenated = true) {q : CompiledQuery} {s : Setting}
    (hdesign : e.designName = .ok s.designName) (hgives : o.GivesIdentifiers)
    (h : find e s.profile o = .ok q ∨ count e s.profile o = .ok q) :
    ∃ name, Proper q.view ∧ q.viewName = .str name ∧
      Memory.viewAt? (q.viewPath s.profile) = some (s.designName, name) := by
  obtain ⟨fields, source, operation, hfields, hsource, ho, hsame, hview⟩ := view_of_compiled h
  have hname : q.viewName = .str (viewName fields operation) := congrArg ViewDefinition.name hview
  have hslashless : ∀ f ∈ fields, '/' ∉ f.toList := fun f hf => Text.not_mem_of_nameChars
    (Name.nameChars_of_isIdentifier (isIdentifier_of_searchFields hgives hfields f hf)) (by decide)
  refine ⟨_, ?_, hname, viewAt?_viewPath he hdesign hsame ho hslashless hname⟩
  rw [hview]
  exact proper_of_mapFunction hsource _ _

end

end Query

namespace Finder

/-- A request for the document of an id. -/
def IsGet (asked : Request × Answer) : Prop := ∃ id, asked.1 = .get id

/-! ## Operations of a finder -/

section
variable {f : Finder} {o : Options} {m : Memory}

/-- Finding asks for what its query asks for. -/
theorem findWith_leads {post : Dialogue.Post Result}
    (hnone : (∀ q, Query.find f.entityType f.profile o ≠ .ok q) → ∀ e, post [] (.error e) m)
    (h : ∀ q, Query.find f.entityType f.profile o = .ok q →
      (q.execute f.setting).Leads m post.made) : (f.findWith o).Leads m post :=
  Dialogue.leads_lift (fun q hq => (h q hq).make fun _ => ⟨_, rfl⟩)
    fun e he => hnone (fun _ hq => nomatch he.symm.trans hq) e

/-- Counting asks for what its query asks for. -/
theorem countWith_leads {post : Dialogue.Post Value}
    (hnone : (∀ q, Query.count f.entityType f.profile { o with limit := .null, offset := .null } ≠
      .ok q) → ∀ e, post [] (.error e) m)
    (h : ∀ q, Query.count f.entityType f.profile { o with limit := .null, offset := .null } = .ok q →
      (q.execute f.setting).Leads m post.made) : (f.countWith o).Leads m post := by
  refine Dialogue.leads_lift (fun q hq => (h q hq).make fun response => ?_)
    fun e he => hnone (fun _ hq => nomatch he.symm.trans hq) e
  -- whichever way the response is counted
  have hcapped (n : Except Fault Int) : ∃ made : Except Fault Value,
      (do Count.capped (.int (← (n : Dialogue Int))) o.limit o.offset) = Dialogue.done made := by
    cases n <;> exact ⟨_, rfl⟩
  cases q.reduced.truthy
  · exact hcapped (Count.rows response)
  · exact hcapped (Count.reduced response)

/-- The first or the last document is one of those found by a limit of one. -/
def endOptions (o : Options) (descending : Bool) : Options :=
  { o with limit := .int 1, descending := if descending then .bool true else o.descending }

/-- Asking for the first or the last document asks for what finding by a limit of one asks for. -/
theorem endWith_leads {post : Dialogue.Post (Option Record)} {descending : Bool}
    (h : (f.findWith (endOptions o descending)).Leads m post.made) :
    (f.endWith o descending).Leads m post := by
  cases descending <;> exact h.make fun _ => ⟨_, rfl⟩

/-- Loading a document by its id asks for this document at most. -/
theorem get_leads {id options : Value} {post : Dialogue.Post Record}
    (h : ∀ log result, (∀ asked ∈ log, IsGet asked) → post log result m) :
    (f.get id options).Leads m post := by
  refine Dialogue.leads_lift (fun o _ => ?_) fun e _ => h [] _ nofun
  refine Dialogue.Leads.bind (Dialogue.leads_request ?_)
  have hasked {made : Except Fault Record} {answer : Answer} :
      post ([(.get id, answer)] ++ []) made m :=
    h _ _ (List.forall_mem_singleton.2 ⟨id, rfl⟩)
  cases hanswer : (m.answer (.get id)).1 with
  | error e => exact h _ _ (List.forall_mem_singleton.2 ⟨id, rfl⟩)
  | ok raw =>
    -- what follows the request makes no other, whichever check fails
    refine Dialogue.leads_lift (fun accepted _ => ?_) fun e _ => hasked
    refine Dialogue.leads_ite ?_ hasked
    refine Dialogue.leads_lift (fun record _ => ?_) fun e _ => hasked
    refine Dialogue.leads_lift (fun attributes _ => ?_) fun e _ => hasked
    refine Dialogue.leads_lift (fun conditions _ => ?_) fun e _ => hasked
    exact Dialogue.leads_ite (Dialogue.leads_ite hasked hasked) hasked

end

/-! ## Calls -/

/-- Several documents are found by their ids. -/
def idOptions (o : Options) (ids : List Value) : Options :=
  { o with conditions := .dict [(.str Name.idField, .list ids)], useKey := .null }

/-- The options of the query that a call comes to, if there is one. -/
def Call.options? : Call → Except Fault (Option Options)
  | .find options => (Options.ofValue options).map some
  | .count options => (Options.ofValue options).map fun o =>
    some { o with limit := .null, offset := .null }
  | .first options => (Options.ofValue options).map fun o => some (endOptions o false)
  | .last options => (Options.ofValue options).map fun o => some (endOptions o true)
  | .getMany ids options => do
    match Value.distinct Value.sameItem ((← ids.items).filter (!·.isNull)) with
    | [] | [_] => return none
    | ids => (Options.ofValue options).map fun o => some (idOptions o ids)
  | .exists (.dict conditions) =>
    (Options.ofValue (.dict [(.str "conditions", .dict conditions)])).map fun o =>
      some (endOptions o false)
  | .exists _ => .ok none

/-- Does a call ask for the number of documents? -/
def Call.counts : Call → Bool
  | .count _ => true
  | _ => false

/-- The query that a call comes to, if there is one. -/
def Call.query? (f : Finder) (call : Call) : Except Fault (Option CompiledQuery) := do
  match ← call.options? with
  | none => return none
  | some o =>
    return some (← (if call.counts then Query.count else Query.find) f.entityType f.profile o)

/-- The names that a call gives for the key of its query are identifiers. -/
def Call.GivesIdentifiers (call : Call) : Prop :=
  ∀ o, call.options? = .ok (some o) → o.GivesIdentifiers

section
variable {f : Finder} {call : Call} {o : Options} {m : Memory}

theorem Call.query?_iff (ho : call.options? = .ok (some o)) {q : CompiledQuery} :
    call.query? f = .ok (some q) ↔
      (if call.counts then Query.count else Query.find) f.entityType f.profile o = .ok q := by
  rw [query?, ho]
  show (((if call.counts then Query.count else Query.find) f.entityType f.profile o).map some) =
    .ok (some q) ↔ _
  cases (if call.counts then Query.count else Query.find) f.entityType f.profile o with
  | error e => exact ⟨nofun, nofun⟩
  | ok q' => simp [Except.map]

/-- The query of a call finds or counts by its options. -/
theorem Call.exists_options {q : CompiledQuery} (h : call.query? f = .ok (some q)) :
    ∃ o, call.options? = .ok (some o) ∧ (Query.find f.entityType f.profile o = .ok q ∨
      Query.count f.entityType f.profile o = .ok q) := by
  cases ho : call.options? with
  | error e =>
    rw [query?, ho] at h
    cases h
  | ok options =>
    cases options with
    | none =>
      rw [query?, ho] at h
      cases h
    | some o =>
      refine ⟨o, rfl, ?_⟩
      have hcompiled := (query?_iff ho).1 h
      cases hc : call.counts with
      | true =>
        rw [hc] at hcompiled
        exact .inr hcompiled
      | false =>
        rw [hc] at hcompiled
        exact .inl hcompiled

/-- A call without options comes to no query. -/
theorem Call.query?_ne (h : ∀ o, call.options? ≠ .ok (some o)) (q : CompiledQuery) :
    call.query? f ≠ .ok (some q) := fun hq => by
  obtain ⟨o, ho, -⟩ := exists_options hq
  exact h o ho

/-! ### One case for each way of calling -/

section
variable {post : Dialogue.Post Unit}

section
variable (hapart : (∀ q, call.query? f ≠ .ok (some q)) →
  ∀ log result, (∀ asked ∈ log, IsGet asked) → post log result m)
include hapart

/-- A call that comes to no query may fail before it asks for anything. -/
theorem Call.made_error_of_apart {α : Type} (h : ∀ q, call.query? f ≠ .ok (some q)) (e : Fault) :
    post.made [] (.error e : Except Fault α) m :=
  Dialogue.Post.made_error (fun e => hapart h [] (.error e) fun _ hasked => by cases hasked) e

/-- A call without options may load documents. -/
theorem Call.made_of_loaded {α : Type} (h : call.options? = .ok none)
    (log : List (Request × Answer)) (result : Except Fault α) (hasked : ∀ asked ∈ log, IsGet asked) :
    post.made log result m := by
  have hwithout : ∀ q, call.query? f ≠ .ok (some q) := query?_ne fun o ho => by
    cases h.symm.trans ho
  exact fun made _ => hapart hwithout log made hasked

/-- A call that reads its options goes on with what it makes of them. -/
theorem Call.leads_read {α : Type} {options : Value} {g : Options → Options}
    {d : Options → Dialogue α}
    (heq : call.options? = (Options.ofValue options).map fun o => some (g o))
    (h : ∀ o, call.options? = .ok (some (g o)) → (d o).Leads m post.made) :
    ((Options.ofValue options : Dialogue Options) >>= d).Leads m post.made := by
  refine Dialogue.leads_lift (fun o ho => h o ?_) fun e he =>
    made_error_of_apart hapart (query?_ne fun o ho => ?_) e
  · rw [heq, ho]
    rfl
  · rw [heq, he] at ho
    cases ho

variable (hquery : ∀ q, call.query? f = .ok (some q) → (q.execute f.setting).Leads m post.made)
include hquery

/-- A call that finds documents asks for what its query asks for. -/
theorem Call.leads_findWith {o : Options} (hc : call.counts = false)
    (ho : call.options? = .ok (some o)) : (f.findWith o).Leads m post.made := by
  have hiff {q : CompiledQuery} := query?_iff (f := f) (q := q) ho
  rw [hc, if_neg (by decide)] at hiff
  exact findWith_leads (fun h => made_error_of_apart hapart fun q hq => h q (hiff.1 hq))
    fun q hq => (hquery q (hiff.2 hq)).mono fun _ _ _ h => h.again

/-- So does one that counts them. -/
theorem Call.leads_countWith {o : Options} (hc : call.counts = true)
    (ho : call.options? = .ok (some { o with limit := .null, offset := .null })) :
    (f.countWith o).Leads m post.made := by
  have hiff {q : CompiledQuery} := query?_iff (f := f) (q := q) ho
  rw [hc, if_pos rfl] at hiff
  exact countWith_leads (fun h => made_error_of_apart hapart fun q hq => h q (hiff.1 hq))
    fun q hq => (hquery q (hiff.2 hq)).mono fun _ _ _ h => h.again

/-- And one that finds the first of them or the last. -/
theorem Call.leads_endWith {o : Options} {descending : Bool} (hc : call.counts = false)
    (ho : call.options? = .ok (some (endOptions o descending))) :
    (f.endWith o descending).Leads m post.made :=
  endWith_leads ((leads_findWith hapart hquery hc ho).mono fun _ _ _ h => h.again)

/-- A call for the documents of ids finds them, or loads the one there is. -/
theorem Call.carryOut_getMany_leads {ids options : Value} (hcall : call = .getMany ids options) :
    (call.carryOut f).Leads m post := by
  subst hcall
  refine Dialogue.Leads.make ?_ fun _ => ⟨_, rfl⟩
  refine Dialogue.leads_lift (fun items hitems => ?_) fun e he => ?_
  · have ho : (Call.getMany ids options).options? =
        match Value.distinct Value.sameItem (items.filter (!·.isNull)) with
        | [] | [_] => .ok none
        | ids => (Options.ofValue options).map fun o => some (idOptions o ids) := by
      rw [options?, hitems]
      rfl
    cases hids : Value.distinct Value.sameItem (items.filter (!·.isNull)) with
    | nil =>
      rw [hids] at ho
      exact made_of_loaded hapart ho _ _ fun _ hasked => by cases hasked
    | cons first rest =>
      rw [hids] at ho
      cases rest with
      | nil =>
        exact (get_leads fun log record hasked =>
          (made_of_loaded hapart ho log record hasked).again).make fun _ => ⟨_, rfl⟩
      | cons second rest =>
        exact leads_read hapart ho fun o => leads_findWith hapart hquery rfl
  · refine made_error_of_apart hapart (query?_ne fun o ho => ?_) e
    rw [options?, he] at ho
    cases ho

/-- A call for whether there is a document finds the first one, or loads the one of the id. -/
theorem Call.carryOut_exists_leads {idOrConditions : Value} (hcall : call = .exists idOrConditions) :
    (call.carryOut f).Leads m post := by
  subst hcall
  have hbyId {id : Value} (h : (Call.exists idOrConditions).options? = .ok none) :
      (Dialogue.recover (fun e => if e.isNotFound then return false else throw e) do
        let _ ← f.get id .null
        return true).Leads m post.made := by
    refine Dialogue.Leads.recover (Dialogue.Leads.bind (get_leads fun log result hasked => ?_))
    have happended (made : Except Fault Bool) : post.made (log ++ []) made m := by
      rw [List.append_nil]
      exact made_of_loaded hapart h log made hasked
    cases result with
    | ok record => exact happended (.ok true)
    | error e => exact Dialogue.leads_ite (happended (.ok false)) (happended (.error e))
  cases idOrConditions with
  | dict conditions =>
    have hfirst : (f.first (.dict [(.str "conditions", .dict conditions)])).Leads m post.made :=
      leads_read hapart rfl fun o => leads_endWith hapart hquery rfl
    refine Dialogue.Leads.make ((hfirst.mono fun _ _ _ h => h.again).make fun record => ?_)
      fun _ => ⟨_, rfl⟩
    cases record <;> exact ⟨_, rfl⟩
  | _ => exact (hbyId rfl).make fun _ => ⟨_, rfl⟩

/-- A call asks for what its query asks for, and without a query for a document of an id at most. -/
theorem Call.carryOut_leads : (call.carryOut f).Leads m post := by
  cases call with
  | find options =>
    exact (leads_read hapart (g := id) rfl fun o => leads_findWith hapart hquery rfl).make
      fun _ => ⟨_, rfl⟩
  | count options =>
    exact (leads_read hapart rfl fun o => leads_countWith hapart hquery rfl).make fun _ => ⟨_, rfl⟩
  | first options =>
    exact (leads_read hapart rfl fun o => leads_endWith hapart hquery rfl).make fun _ => ⟨_, rfl⟩
  | last options =>
    exact (leads_read hapart rfl fun o => leads_endWith hapart hquery rfl).make fun _ => ⟨_, rfl⟩
  | getMany ids options => exact carryOut_getMany_leads hapart hquery rfl
  | «exists» idOrConditions => exact carryOut_exists_leads hapart hquery rfl

end

end

/-- What a call asks for, where only the registry has written the design document: what its query asks
for, or nothing that needs a stored view. -/
inductive Call.Carried (f : Finder) (call : Call) (m : Memory) : Dialogue.Post Unit
  | apart (hslow : ∀ q, call.query? f = .ok (some q) → q.slow.truthy = true)
    (log : List (Request × Answer)) (result : Except Fault Unit) (after : Memory)
    (hasked : ∀ asked ∈ log, IsGet asked ∨ CompiledQuery.IsAdHoc asked) (hafter : after = m) :
    Carried f call m log result after
  | query (q : CompiledQuery) (name : String) (hquery : call.query? f = .ok (some q))
    (hindexed : q.slow.truthy = false) (hname : q.viewName = .str name)
    (hpath : Memory.viewAt? (q.viewPath f.profile) = some (f.designName, name))
    (log : List (Request × Answer)) (result : Except Fault Unit) (after : Memory)
    (h : q.Asks (fun _ => True) f.setting name m q.requests log result after) :
    Carried f call m log result after

/-- So it is for a call of identifiers. -/
theorem Call.carryOut_carried (he : f.entityType.name.isHyphenated = true)
    (hdesign : f.entityType.designName = .ok f.designName) (hgives : call.GivesIdentifiers)
    (hwritten : Written (fun _ => True) f.designName (m.documents.get? (designId f.designName))) :
    (call.carryOut f).Leads m (call.Carried f m) := by
  refine carryOut_leads (fun hnone log result hasked => ?_) fun q hq => ?_
  · exact .apart (fun q hq => absurd hq (hnone q)) log result m (fun asked h =>
      .inl (hasked asked h)) rfl
  · obtain ⟨o, ho, hcompiled⟩ := exists_options hq
    obtain ⟨name, hview, hname, hpath⟩ :=
      Query.exists_view_of_compiled (s := f.setting) he hdesign (hgives o ho) hcompiled
    cases hslow : q.slow.truthy with
    | true =>
      refine (CompiledQuery.execute_slow hslow).mono fun log result after h made _ => ?_
      refine .apart (fun q' hq' => ?_) log made after (fun asked hasked =>
        .inr (h.asked asked hasked)) h.store
      cases hq.symm.trans hq'
      exact hslow
    | false =>
      exact (CompiledQuery.execute_asks hview trivial hname hpath hslow hwritten).mono
        fun log result after h made hmade =>
          .query q name hq hslow hname hpath log made after (h.congr hmade)

end

end Finder

end ViewFinder
