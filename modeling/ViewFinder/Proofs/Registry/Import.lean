import ViewFinder.Proofs.Registry.WrittenViews
import ViewFinder.Store.Scripted

/-!
# Views that are made sure of one after the other

Making sure of several views reads the design document anew for each, and saves it for each that it
lacks. What is there stays, what is new is added (`Registry.Imported`), and the number of those is that
of the saves (`Registry.ensureAll_leads`). All of them are there then, so that nothing is done when they
are made sure of again (`Registry.Imported.newViews_eq_nil`).
-/

namespace ViewFinder.Registry

open Store

/-- The number of saves among requests. -/
def saves (log : List (Request × Answer)) : Nat := log.countP fun x => x.1.kind == .save

/-- Does a design document have a view of the name? -/
def isStored (document : Option Value) (view : ViewDefinition) : Bool :=
  (namesIn document).any (·.sameKey view.name)

/-- The views that a design document has no views of the names of. -/
def newViews (document : Option Value) (views : List ViewDefinition) : List ViewDefinition :=
  views.filter fun view => !isStored document view

/-- A design document has been saved a number of times, as its revision tells unless that is beyond
reading. -/
inductive Counts : Nat → Option Value → Prop
  | absent : Counts 0 none
  | stored {es : Entries} {rev : String} {n : Nat} (hrev : es.get? "_rev" = some (.str rev))
    (hn : n < 10 ^ Text.maxDigits → Memory.generation (.str rev) = .ok (n : Int)) :
    Counts n (some (.dict es))

/-- A design document after views were made sure of: it has the views that it had, as they were, and
after them those that were new. -/
structure Imported (designName : String) (document : Option Value) (views : List ViewDefinition)
    (after : Option Value) : Prop where
  settled : Settled designName after
  names : namesIn after = namesIn document ++ (newViews document views).map (·.name)
  held : ∀ view ∈ newViews document views, ∀ name, view.name = .str name → viewIn after name = some view
  others : ∀ name, .str name ∉ (newViews document views).map (·.name) →
    viewIn after name = viewIn document name

theorem isStored_iff {document : Option Value} {view : ViewDefinition} {name : String}
    (hname : view.name = .str name) :
    isStored document view = true ↔ (viewIn document name).isSome = true := by
  rw [isSome_viewIn_iff, isStored, hname]
  simp only [List.any_eq_true, Value.sameKey_str_iff, exists_eq_right]

/-! ## One view -/

/-- A view was added to a design document by one save, which the revision counts. -/
structure AddsOne (designName : String) (view : ViewDefinition) (document : Option Value) (n : Nat)
    (log : List (Request × Answer)) (result : Except Fault Bool) (after : Memory) : Prop where
  saves : saves log = 1
  result : result = .ok true
  added : Added designName document view (after.design designName)
  counts : Counts (n + 1) (after.design designName)

/-- The revision of what is saved counts one more. -/
theorem counts_entriesOf (designName : String) (bodies : Entries) (n : Nat) :
    Counts (n + 1) (some (.dict (entriesOf designName bodies s!"{(n : Int) + 1}-mem"))) :=
  .stored (get?_rev_entriesOf ..) fun hlt => Memory.generation_printed_of_lt hlt

section
variable {designName : String} {m : Memory} {view : ViewDefinition} {name : String}
  (hview : Proper view) (hname : view.name = .str name)
include hview hname

/-- A design document is made for a view. -/
theorem writing_leads_of_absent (hdocument : m.documents.get? (designId designName) = none) :
    (writing { docId := .str (designId designName) } view).Leads m (AddsOne designName view none 0) := by
  obtain ⟨response, after, hsave, hadded⟩ := save_cases_absent hview hname hdocument
  rw [writing_eq hview, Dialogue.Leads, hsave]
  refine leads_saved ⟨rfl, rfl, hadded, ?_⟩
  cases hsave.symm.trans (save_absent hdocument (Views.insert [] view.name view))
  rw [Memory.design, get?_afterSave]
  exact counts_entriesOf ..

/-- The design document that is there is saved with a view added. -/
theorem writing_leads_of_sound {es bodies : Entries} {rev : String}
    (hdocument : m.documents.get? (designId designName) = some (.dict es))
    (h : Sound designName es bodies rev) (hlacks : bodies.get? name = none) {n : Nat}
    (hcounts : Counts n (some (.dict es))) (hn : n < 10 ^ Text.maxDigits) :
    (writing (designOf designName bodies (.str rev)) view).Leads m
      (AddsOne designName view (some (.dict es)) n) := by
  obtain ⟨rev', hrev, hgeneration⟩ : ∃ rev', es.get? "_rev" = some (.str rev') ∧
      Memory.generation (.str rev') = .ok (n : Int) := by
    cases hcounts with
    | stored hrev hgeneration => exact ⟨_, hrev, hgeneration hn⟩
  obtain rfl : rev' = rev := by simpa [h.rev] using hrev.symm
  rw [writing_eq hview, Dialogue.Leads]
  rcases save_current hname bodies hdocument h.rev with ⟨k, response, hk, hsave⟩ | ⟨_, _, hk, -⟩
  · cases hgeneration.symm.trans hk
    rcases save_cases_current hview hname hdocument h hlacks with
      ⟨_, after, hstored, hadded⟩ | ⟨e, hfails⟩
    · cases hsave.symm.trans hstored
      rw [hsave]
      refine leads_saved ⟨rfl, rfl, hadded, ?_⟩
      rw [Memory.design, get?_afterSave]
      exact counts_entriesOf ..
    · cases hsave.symm.trans hfails
  · cases hgeneration.symm.trans hk

end

section
variable {designName : String} {m : Memory} {view : ViewDefinition} {name : String}
  (hname : view.name = .str name) (hsettled : Settled designName (m.design designName))
include hname hsettled

/-- A view that is there is left alone. -/
theorem ensure_leads_of_stored (hstored : isStored (m.design designName) view = true) :
    (ensure designName view).Leads m fun log result after =>
      saves log = 0 ∧ result = .ok false ∧ after = m := by
  rw [isStored_iff hname] at hstored
  rw [ensure_eq, Dialogue.Leads, answer_get]
  generalize hdocument : m.design designName = document at hsettled hstored
  rw [Memory.design] at hdocument
  rw [hdocument]
  cases hsettled with
  | absent => cases hstored
  | stored es bodies rev h =>
    rw [viewIn, h.bodiesIn_eq, Option.isSome_map] at hstored
    have hread : settling designName view (found (.ok (.dict es))) =
        .learn ((designOf designName bodies (.str rev)).views.map (·.1)) (.done (.ok false)) := by
      rw [h.found_eq, settling, hname, hasView_designOf, hstored]
      rfl
    simp only [hread]
    exact ⟨rfl, rfl, rfl⟩

/-- A view that is not there is added, by one save. -/
theorem ensure_leads_of_new (hview : Proper view) {n : Nat} (hcounts : Counts n (m.design designName))
    (hn : n < 10 ^ Text.maxDigits) (hnew : isStored (m.design designName) view = false) :
    (ensure designName view).Leads m (AddsOne designName view (m.design designName) n) := by
  have hlacks : viewIn (m.design designName) name = none := by
    rw [← Option.not_isSome_iff_eq_none, ← isStored_iff hname, hnew]
    decide
  rw [ensure_eq, Dialogue.Leads, answer_get]
  generalize hdocument : m.design designName = document at hsettled hlacks hcounts
  rw [Memory.design] at hdocument
  rw [hdocument]
  cases hsettled with
  | absent =>
    cases hcounts
    exact (writing_leads_of_absent hview hname hdocument).mono
      fun _ _ _ h => ⟨h.saves, h.result, h.added, h.counts⟩
  | stored es bodies rev h =>
    rw [viewIn, h.bodiesIn_eq, Option.map_eq_none_iff] at hlacks
    have hread : settling designName view (found (.ok (.dict es))) =
        writing (designOf designName bodies (.str rev)) view := by
      rw [h.found_eq, settling, hname, hasView_designOf, hlacks]
      rfl
    simp only [hread]
    exact (writing_leads_of_sound hview hname hdocument h hlacks hcounts hn).mono
      fun _ _ _ h => ⟨h.saves, h.result, h.added, h.counts⟩

end

/-! ## Several views -/

theorem newViews_cons_of_stored {document : Option Value} {view : ViewDefinition}
    (h : isStored document view = true) (rest : List ViewDefinition) :
    newViews document (view :: rest) = newViews document rest := by
  rw [newViews, List.filter_cons_of_neg (by rw [h]; decide), newViews]

theorem newViews_cons_of_new {document : Option Value} {view : ViewDefinition}
    (h : isStored document view = false) (rest : List ViewDefinition) :
    newViews document (view :: rest) = view :: newViews document rest := by
  rw [newViews, List.filter_cons_of_pos (by rw [h]; decide), newViews]

theorem saves_append (log log' : List (Request × Answer)) : saves (log ++ log') = saves log + saves log' :=
  List.countP_append

/-- Only the new views matter. -/
theorem Imported.of_newViews {designName : String} {document after : Option Value}
    {views views' : List ViewDefinition} (h : Imported designName document views after)
    (heq : newViews document views' = newViews document views) :
    Imported designName document views' after :=
  ⟨h.settled, heq ▸ h.names, heq ▸ h.held, heq ▸ h.others⟩

/-- After one view was added, those of other names are as new as before. -/
theorem Added.newViews_eq {designName : String} {document after : Option Value} {view : ViewDefinition}
    (h : Added designName document view after) {views : List ViewDefinition}
    (hviews : ∀ v ∈ views, Proper v) (hother : view.name ∉ views.map (·.name)) :
    newViews after views = newViews document views := by
  refine List.filter_congr fun v hv => ?_
  obtain ⟨name, hname⟩ := (hviews v hv).name
  have hdiffers : view.name.sameKey v.name = false := by
    rw [hname]
    refine Value.sameKey_str_of_ne fun heq => hother ?_
    rw [heq, ← hname]
    exact List.mem_map_of_mem hv
  rw [isStored, isStored, h.names, List.any_append, List.any_cons, List.any_nil, hdiffers, Bool.or_false,
    Bool.or_false]

/-- Adding one view and then others is adding all of them. -/
theorem Imported.cons {designName : String} {document between after : Option Value}
    {view : ViewDefinition} {views : List ViewDefinition} (hadded : Added designName document view between)
    (himported : Imported designName between views after) (hnew : isStored document view = false)
    (hviews : ∀ v ∈ views, Proper v) (hother : view.name ∉ views.map (·.name)) :
    Imported designName document (view :: views) after := by
  have hrest := hadded.newViews_eq hviews hother
  obtain ⟨hsettled, hnames, hheld, hothers⟩ := himported
  rw [hrest] at hnames hheld hothers
  have hcons := newViews_cons_of_new hnew views
  refine ⟨hsettled, ?_, ?_, ?_⟩
  · rw [hcons, hnames, hadded.names, List.map_cons, List.append_assoc, List.singleton_append]
  · rw [hcons]
    refine List.forall_mem_cons.2 ⟨fun name hname => ?_, hheld⟩
    rw [hothers name, hadded.held name hname]
    have hsubset : newViews document views ⊆ views := List.filter_subset_self _
    rw [← hname]
    exact fun hmem => hother (List.map_subset _ hsubset hmem)
  · rw [hcons, List.map_cons]
    intro name hname
    rw [List.mem_cons, not_or] at hname
    rw [hothers name hname.2, hadded.others name fun heq => hname.1 heq.symm]

/-- Views of distinct names are made sure of: those that are new are added, by one save each, and nothing
else is changed. -/
theorem ensureAll_leads {designName : String} {views : List ViewDefinition}
    (hviews : ∀ view ∈ views, Proper view) (hnames : (views.map (·.name)).Nodup) {m : Memory} {n : Nat}
    (hsettled : Settled designName (m.design designName)) (hcounts : Counts n (m.design designName))
    (hn : n + (newViews (m.design designName) views).length ≤ 10 ^ Text.maxDigits) :
    (ensureAll designName views).Leads m fun log result after =>
      saves log = (newViews (m.design designName) views).length ∧
      result = .ok (newViews (m.design designName) views).length ∧
      Imported designName (m.design designName) views (after.design designName) ∧
      Counts (n + (newViews (m.design designName) views).length) (after.design designName) ∧
      (newViews (m.design designName) views = [] → after = m) := by
  induction views generalizing m n with
  | nil =>
    refine Dialogue.leads_done ⟨rfl, rfl, ⟨hsettled, ?_, nofun, fun _ _ => rfl⟩, hcounts, fun _ => rfl⟩
    rw [newViews, List.filter_nil, List.map_nil, List.append_nil]
  | cons view rest ih =>
    obtain ⟨hview, hrest⟩ := List.forall_mem_cons.1 hviews
    obtain ⟨name, hname⟩ := hview.name
    obtain ⟨hfresh, hnodup⟩ := List.nodup_cons.1 hnames
    show (ensure designName view >>= fun written => ensureAll designName rest >>= fun others =>
      pure (if written then others + 1 else others)).Leads m _
    cases hstored : isStored (m.design designName) view with
    | true =>
      have hcons := newViews_cons_of_stored hstored rest
      rw [hcons] at hn ⊢
      refine Dialogue.Leads.bind ((ensure_leads_of_stored hname hsettled hstored).mono ?_)
      rintro log result after ⟨hsaves, rfl, rfl⟩
      refine Dialogue.Leads.bind ((ih hrest hnodup hsettled hcounts hn).mono ?_)
      rintro log' result after' ⟨hsaves', rfl, himported, hcounted, hsame⟩
      refine Dialogue.leads_done ⟨?_, rfl, himported.of_newViews hcons, hcounted, hsame⟩
      rw [saves_append, saves_append, hsaves, hsaves', Nat.zero_add]
      rfl
    | false =>
      have hcons := newViews_cons_of_new hstored rest
      rw [hcons, List.length_cons] at hn ⊢
      refine Dialogue.Leads.bind
        ((ensure_leads_of_new hname hsettled hview hcounts (by omega) hstored).mono ?_)
      rintro log result after ⟨hsaves, rfl, hadded, hcounts'⟩
      have hsame := hadded.newViews_eq hrest hfresh
      refine Dialogue.Leads.bind
        ((ih hrest hnodup hadded.settled hcounts' (by rw [hsame]; omega)).mono ?_)
      rintro log' result after' ⟨hsaves', rfl, himported, hcounted, -⟩
      rw [hsame] at hsaves' hcounted ⊢
      refine Dialogue.leads_done ⟨?_, rfl, .cons hadded himported hstored hrest hfresh, ?_, nofun⟩
      · rw [saves_append, saves_append, hsaves, hsaves', Nat.add_comm 1]
        rfl
      · rwa [Nat.add_assoc, Nat.add_comm 1] at hcounted

/-- None of the views is new when all of them were made sure of. -/
theorem Imported.newViews_eq_nil {designName : String} {document after : Option Value}
    {views : List ViewDefinition} (h : Imported designName document views after)
    (hviews : ∀ view ∈ views, Proper view) : newViews after views = [] := by
  refine List.filter_eq_nil_iff.2 fun view hview => ?_
  obtain ⟨name, hname⟩ := (hviews view hview).name
  have hmem : view.name ∈ namesIn after := by
    rw [h.names, List.mem_append]
    cases hstored : isStored document view with
    | true =>
      rw [isStored_iff hname, isSome_viewIn_iff, ← hname] at hstored
      exact .inl hstored
    | false =>
      refine .inr (List.mem_map_of_mem (List.mem_filter.2 ⟨hview, ?_⟩))
      rw [hstored]
      rfl
  rw [hname, ← isSome_viewIn_iff, ← isStored_iff hname] at hmem
  rw [hmem]
  decide

end ViewFinder.Registry
