import ViewFinder.Proofs.FindConditions
import ViewFinder.Proofs.Query.Ranges

/-!
# Loading by id

A document is loaded if it is of the type and its attributes equal the conditions, each taken as one
value (`Finder.getWith_ends`). Finding reads conditions otherwise: a range holds the values between its
bounds, and a list stands for its items (`Condition.satisfies`). No value equals a list and one of its
items too (`Value.equal_eq_false_of_mem`), and no JSON value equals a range. So loading and finding agree
about exact conditions, and about others only where a document is refused by both
(`get_satisfies_iff`).
-/

namespace ViewFinder

open Store

/-! ## Lists and their items -/

namespace Value

mutual

/-- How deep are lists nested in a value? -/
def nesting : Value → Nat
  | .list vs => deepest vs + 1
  | _ => 0

/-- How deep are lists nested in one of some values at most? -/
def deepest : List Value → Nat
  | [] => 0
  | v :: vs => max (nesting v) (deepest vs)

end

theorem nesting_le_deepest {v : Value} {vs : List Value} (h : v ∈ vs) : v.nesting ≤ deepest vs := by
  induction vs with
  | nil => cases h
  | cons w vs ih =>
    rw [deepest]
    rcases List.mem_cons.1 h with rfl | h
    · exact Nat.le_max_left ..
    · exact Nat.le_trans (ih h) (Nat.le_max_right ..)

/-- A value that equals a list is one. -/
theorem exists_of_agree_list {loose : Bool} {v : Value} {ws : List Value}
    (h : agree loose v (.list ws) = true) : ∃ vs, v = .list vs := by
  cases v with
  | list vs => exact ⟨vs, rfl⟩
  | float x => cases x <;> (rw [agree] at h; cases h)
  | null | bool | int => rw [agree] at h; cases h
  | _ => simp [agree, Version.agreesWith, Version.ofLoose?] at h

theorem nesting_eq_of_isSameNaN {v w : Value} (h : isSameNaN v w = true) : v.nesting = w.nesting := by
  unfold isSameNaN at h
  split at h
  · rfl
  · cases h

mutual

/-- Lists are nested equally deep in equal values. -/
theorem nesting_eq_of_agree {loose : Bool} : ∀ v w : Value, agree loose v w = true →
    v.nesting = w.nesting
  | .list vs, .list ws, h => by
    rw [agree] at h
    rw [nesting, nesting, deepest_eq_of_agreeAll vs ws h]
  | .list _, .null, h | .list _, .bool _, h | .list _, .int _, h | .list _, .float _, h
  | .list _, .str _, h | .list _, .tuple _, h | .list _, .set _, h | .list _, .frozenset _, h
  | .list _, .range .., h | .list _, .version _, h | .list _, .dict _, h => by simp [agree] at h
  | .null, w, h | .bool _, w, h | .int _, w, h | .float _, w, h | .str _, w, h | .tuple _, w, h
  | .set _, w, h | .frozenset _, w, h | .range .., w, h | .version _, w, h | .dict _, w, h => by
    cases w with
    | list ws =>
      obtain ⟨vs, hvs⟩ := exists_of_agree_list h
      cases hvs
    | _ => rfl

/-- So are they in lists that are equal item by item. -/
theorem deepest_eq_of_agreeAll {loose : Bool} : ∀ vs ws : List Value, agreeAll loose vs ws = true →
    deepest vs = deepest ws
  | [], [], _ => rfl
  | v :: vs, w :: ws, h => by
    simp only [agreeAll, Bool.and_eq_true, Bool.or_eq_true] at h
    have hfirst : v.nesting = w.nesting := h.1.elim nesting_eq_of_isSameNaN (nesting_eq_of_agree v w)
    rw [deepest, deepest, hfirst, deepest_eq_of_agreeAll vs ws h.2]
  | [], _ :: _, h => by simp [agreeAll] at h
  | _ :: _, [], h => by simp [agreeAll] at h

end

/-- What equals a list equals none of its items. -/
theorem equal_eq_false_of_mem {v w : Value} {ws : List Value} (h : v.equal (.list ws) = true)
    (hw : w ∈ ws) : v.equal w = false := by
  rw [Bool.eq_false_iff]
  intro hequal
  have hlist := nesting_eq_of_agree v _ h
  have hitem := nesting_eq_of_agree v w hequal
  have hle := nesting_le_deepest hw
  rw [nesting] at hlist
  omega

end Value

/-! ## Conditions -/

namespace Condition

open Query

/-- Does a condition ask for one value? -/
def isExact (c : Value) : Bool := !isRange c && !isDiscrete c

/-- Does a value satisfy a condition as a query has it: is it within the range, or else one of the
values that are accepted? -/
def satisfies (c v : Value) : Bool :=
  if isRange c then covers c v else ((choices c).toOption.getD []).any (v.equal ·)

/-- Does a document satisfy conditions? A field that it lacks is null. -/
def satisfiesAll (conditions doc : Entries) : Bool :=
  conditions.all fun c => satisfies c.2 (doc.getD (Name.normalizeField c.1.text))

section
variable {c v : Value}

/-- An exact value asks for what equals it. -/
theorem satisfies_of_isExact (h : isExact c = true) : satisfies c v = v.equal c := by
  rw [isExact, Bool.and_eq_true, Bool.not_eq_true', Bool.not_eq_true'] at h
  rw [satisfies, h.1, choices, h.2]
  simp [Except.toOption]

/-- A JSON value does not equal a range, a tuple or a set. -/
theorem exists_of_equal (hv : v.isJson = true) (hc : isExact c = false) (h : v.equal c = true) :
    ∃ ws, c = .list ws := by
  cases c with
  | list ws => exact ⟨ws, rfl⟩
  | range | tuple | set | frozenset =>
    cases v with
    | float x => cases x <;> (rw [Value.equal, Value.agree] at h; cases h)
    | null | bool | int => rw [Value.equal, Value.agree] at h; cases h
    | str | list | dict => simp [Value.equal, Value.agree] at h
    | _ => cases hv
  | _ => cases hc

/-- What equals a condition that is not exact does not satisfy it. -/
theorem satisfies_eq_false (hv : v.isJson = true) (hc : isExact c = false) (h : v.equal c = true) :
    satisfies c v = false := by
  obtain ⟨ws, rfl⟩ := exists_of_equal hv hc h
  have hchoices : choices (.list ws) = .ok ws := rfl
  have hrange : isRange (.list ws) = false := rfl
  rw [satisfies, hrange, if_neg Bool.false_ne_true, hchoices, Except.toOption, Option.getD_some,
    List.any_eq_false]
  exact fun w hw => by rw [Value.equal_eq_false_of_mem h hw]; decide

end

/-- Conditions that are atoms or lists of atoms are satisfied by the documents that are found. -/
theorem satisfiesAll_eq_meets {conditions : Entries}
    (hchoice : ∀ c ∈ conditions, isChoice c.2 = true) (d : String × Entries) :
    satisfiesAll conditions d.2 = meets conditions d := by
  rw [satisfiesAll, meets, Bool.eq_iff_iff, List.all_eq_true, List.all_eq_true]
  refine forall₂_congr fun c hc => ?_
  rw [satisfies, isRange_of_isChoice (hchoice c hc), choices_eq (hchoice c hc)]
  rfl

end Condition

/-! ## Loading -/

/-- Every document of a store is there under its own id. -/
def Store.Memory.OwnIds (m : Memory) : Prop :=
  ∀ d ∈ m.documents, ∀ es : Entries, d.2 = .dict es → es.getD "_id" = d.1

namespace EntityType

/-- Something is made of each document that has an id. -/
theorem exists_instantiate (e : EntityType) {doc : Entries} (hnamed : doc.Named) {id : String}
    (hid : doc.getD "_id" = .str id) : ∃ record, e.instantiate (.dict doc) = .ok record := by
  have hget : doc.get? Name.idField = some (.str id) := by
    rw [Entries.getD] at hid
    cases hget : doc.get? "_id" with
    | none =>
      rw [hget] at hid
      cases hid
    | some v =>
      rw [hget] at hid
      exact hget.trans (congrArg some hid)
  have hattributes : (Value.dict doc).toAttributes = .ok doc := by
    rw [Value.toAttributes]
    refine if_pos (List.all_eq_true.2 fun entry hentry => ?_)
    obtain ⟨name, hname⟩ := hnamed.texts entry hentry
    obtain ⟨key, v⟩ := entry
    cases hname
    rfl
  have hrequired : (Value.dict doc).required Name.idField = .ok (.str id) := by
    simp only [Value.required, hget]
  cases hfactory : e.factory with
  | document => exact ⟨_, instantiate_dict hfactory doc⟩
  | mapping => exact ⟨_, by rw [instantiate, hfactory]; rfl⟩
  | object =>
    exact ⟨_, by rw [instantiate, hfactory]; exact congrArg (Except.map Record.object) hattributes⟩
  | identity =>
    exact ⟨_, by rw [instantiate, hfactory]; exact congrArg (Except.map Record.value) hrequired⟩

end EntityType

namespace Finder

variable {m : Memory} {f : Finder} {o : Options} {conditions : Entries}

theorem meets_eq_all (doc conditions : Entries) : meets doc conditions =
    conditions.all fun c => (doc.getD (Name.normalizeField c.1.text)).equal c.2 := by
  induction conditions with
  | nil => rfl
  | cons c conditions ih =>
    obtain ⟨name, v⟩ := c
    rw [meets, ih, List.all_cons]
    rfl

/-- Exact conditions are met where they are satisfied. -/
theorem meets_eq_satisfiesAll {doc : Entries}
    (hexact : ∀ c ∈ conditions, Condition.isExact c.2 = true) :
    meets doc conditions = Condition.satisfiesAll conditions doc := by
  rw [meets_eq_all, Condition.satisfiesAll, Bool.eq_iff_iff, List.all_eq_true, List.all_eq_true]
  exact forall₂_congr fun c hc => by rw [Condition.satisfies_of_isExact (hexact c hc)]

/-- If one is not exact, no JSON document both meets and satisfies them. -/
theorem satisfiesAll_eq_false {doc : Entries} (hdoc : (Value.dict doc).isJson = true)
    {c : Value × Value} (hc : c ∈ conditions) (hexact : Condition.isExact c.2 = false)
    (h : meets doc conditions = true) : Condition.satisfiesAll conditions doc = false := by
  rw [meets_eq_all, List.all_eq_true] at h
  rw [Condition.satisfiesAll, List.all_eq_false]
  refine ⟨c, hc, ?_⟩
  rw [Condition.satisfies_eq_false (Value.isJson_getD hdoc _) hexact (h c hc)]
  decide

/-- A JSON document meets conditions where it satisfies them if and only if they are exact, or it does
neither. -/
theorem meets_eq_satisfiesAll_iff {doc : Entries} (hdoc : (Value.dict doc).isJson = true) :
    meets doc conditions = Condition.satisfiesAll conditions doc ↔
      (∀ c ∈ conditions, Condition.isExact c.2 = true) ∨
        meets doc conditions = false ∧ Condition.satisfiesAll conditions doc = false := by
  constructor
  · intro heq
    by_cases hexact : ∀ c ∈ conditions, Condition.isExact c.2 = true
    · exact .inl hexact
    · simp only [not_forall, Bool.not_eq_true] at hexact
      obtain ⟨c, hc, hexact⟩ := hexact
      cases hmeets : meets doc conditions with
      | false => exact .inr ⟨rfl, by rw [← heq, hmeets]⟩
      | true =>
        rw [hmeets, satisfiesAll_eq_false hdoc hc hexact hmeets] at heq
        cases heq
  · rintro (hexact | ⟨hmeets, hsatisfies⟩)
    · exact meets_eq_satisfiesAll hexact
    · rw [hmeets, hsatisfies]

/-- A document that is stored is loaded if it is of the type and meets the conditions. -/
theorem getWith_ends (hfield : f.entityType.discriminatorField.hashable = true)
    (hconditions : o.conditions = .dict conditions) {id : String} {doc : Entries}
    (hdoc : m.documents.get? id = some (.dict doc)) {record : Record}
    (hrecord : f.entityType.instantiate (.dict doc) = .ok record) :
    (f.getWith (.str id) o).Ends m
      (if f.entityType.isType doc && meets doc conditions then
        f.entityType.makeRecord o.readonly (id, doc)
      else .error (.notFound (.ofType f.entityType.name.text id))) m := by
  have hget := Dialogue.ends_request (m := m) (.get (.str id))
  rw [Registry.answer_get, hdoc] at hget
  have haccepts : f.entityType.accepts (.dict doc) = .ok (f.entityType.isType doc) := by
    simp [EntityType.accepts, Value.entries, hfield, bind, Except.bind, pure, Except.pure]
  rw [getWith]
  refine hget.bind (Dialogue.ends_lift haccepts ?_)
  cases f.entityType.isType doc with
  | false => exact Dialogue.ends_throw _
  | true =>
    have hentries : o.conditions.entries = .ok conditions := by
      rw [hconditions]
      rfl
    refine Dialogue.ends_lift hrecord (Dialogue.ends_lift (a := doc) rfl
      (Dialogue.ends_lift hentries ?_))
    rw [EntityType.makeRecord, hrecord]
    cases meets doc conditions with
    | false => exact Dialogue.ends_throw _
    | true =>
      cases o.readonly.truthy with
      | false => exact Dialogue.ends_pure _
      | true => exact Dialogue.ends_done _

/-- One that is not stored is not found. -/
theorem getWith_ends_missing {id : String} (h : m.documents.get? id = none) :
    (f.getWith (.str id) o).Ends m (.error (.notFound (.document id))) m := by
  have hget := Dialogue.ends_request (m := m) (.get (.str id))
  rw [Registry.answer_get, h] at hget
  exact hget.bind_error

end Finder

section
variable {m : Memory} {e : EntityType} {designName : String}
  (hdesign : e.designName = .ok designName) (hfield : e.discriminatorField.hashable = true)
  {id : String} {doc : Entries} (hdoc : m.documents.get? id = some (.dict doc))
include hdesign hfield hdoc

/-- What loading a stored document comes to. -/
theorem outcome_get {options : Value} {o : Options} (hoptions : Options.ofValue options = .ok o)
    {conditions : Entries} (hconditions : o.conditions = .dict conditions) {record : Record}
    (hrecord : e.instantiate (.dict doc) = .ok record) (p : Profile) (allowAdHoc : Bool) :
    m.outcome p allowAdHoc e (·.get (.str id) options) =
      if e.isType doc && Finder.meets doc conditions then e.makeRecord o.readonly (id, doc)
        else .error (.notFound (.ofType e.name.text id)) :=
  Dialogue.Ends.outcome_eq hdesign (Dialogue.ends_lift hoptions (Finder.getWith_ends
    (f := Database.finderOf e designName p allowAdHoc) hfield hconditions hdoc hrecord))

variable (hm : m.HoldsJson) (hown : m.OwnIds)
include hm hown

/-- Loading a document by id and conditions: it takes the conditions as finding does if and only if they
are exact, or the document is not of the type, or it neither equals the conditions nor satisfies them. -/
theorem get_satisfies_iff (conditions : Entries) (p : Profile) (allowAdHoc : Bool) :
    ∃ record, e.instantiate (.dict doc) = .ok record ∧
      m.outcome p allowAdHoc e (·.get (.str id) (.dict [(.str "conditions", .dict conditions)])) =
        (if e.isType doc && Finder.meets doc conditions then .ok record
          else .error (.notFound (.ofType e.name.text id))) ∧
      (m.outcome p allowAdHoc e (·.get (.str id) (.dict [(.str "conditions", .dict conditions)])) =
        (if e.isType doc && Condition.satisfiesAll conditions doc then .ok record
          else .error (.notFound (.ofType e.name.text id))) ↔
        (∀ c ∈ conditions, Condition.isExact c.2 = true) ∨ e.isType doc = false ∨
          Finder.meets doc conditions = false ∧ Condition.satisfiesAll conditions doc = false) := by
  have hmem := Entries.mem_of_get? hdoc
  obtain ⟨es, heq, hjson⟩ := hm.objects _ hmem
  cases heq
  obtain ⟨record, hrecord⟩ :=
    e.exists_instantiate ((Value.isJson_dict doc).1 hjson).1 (hown _ hmem doc rfl)
  have houtcome : m.outcome p allowAdHoc e
      (·.get (.str id) (.dict [(.str "conditions", .dict conditions)])) =
        if e.isType doc && Finder.meets doc conditions then .ok record
          else .error (.notFound (.ofType e.name.text id)) := by
    have hmade : e.makeRecord (.bool false) (id, doc) = .ok record := by
      rw [EntityType.makeRecord, hrecord]
      rfl
    rw [outcome_get hdesign hfield hdoc (Options.ofValue_conditions conditions) rfl hrecord, hmade]
  refine ⟨record, hrecord, houtcome, ?_⟩
  rw [houtcome]
  have hsame {a b : Bool} : ((if a then .ok record else .error (.notFound (.ofType e.name.text id)) :
      Except Fault Record) = if b then .ok record else .error (.notFound (.ofType e.name.text id))) ↔
        a = b := by
    cases a <;> cases b <;> simp
  rw [hsame]
  cases e.isType doc with
  | false => simp
  | true =>
    simp only [Bool.true_and, Bool.true_eq_false, false_or]
    exact Finder.meets_eq_satisfiesAll_iff hjson

end

/-- The first of the people, by its id and the grade that it has. -/
def gradeOfFirst : Entries := [(.str "id", .str "p1"), (.str "grade", .int 9)]

/-- The attributes of the first of the people. -/
def firstPerson : Entries :=
  [(.str "_id", .str "p1"), (.str "doc_type", .str "Person"), (.str "grade", .int 9)]

theorem ownIds_people : people.OwnIds := by
  simp [Memory.OwnIds, people, Entries.getD]

theorem get?_people : people.documents.get? "p1" = some (.dict firstPerson) := by
  simp [people, firstPerson]

theorem get_people_satisfies_iff : ∃ record, person.instantiate (.dict firstPerson) = .ok record ∧
    people.outcome ⟨{ minor := 9 }⟩ true person
        (·.get (.str "p1") (.dict [(.str "conditions", .dict gradeOfFirst)])) =
      (if person.isType firstPerson && Finder.meets firstPerson gradeOfFirst then .ok record
        else .error (.notFound (.ofType "Person" "p1"))) ∧
    (people.outcome ⟨{ minor := 9 }⟩ true person
        (·.get (.str "p1") (.dict [(.str "conditions", .dict gradeOfFirst)])) =
      (if person.isType firstPerson && Condition.satisfiesAll gradeOfFirst firstPerson then .ok record
        else .error (.notFound (.ofType "Person" "p1"))) ↔
      (∀ c ∈ gradeOfFirst, Condition.isExact c.2 = true) ∨ person.isType firstPerson = false ∨
        Finder.meets firstPerson gradeOfFirst = false ∧
          Condition.satisfiesAll gradeOfFirst firstPerson = false) :=
  get_satisfies_iff rfl rfl get?_people holdsJson_people ownIds_people gradeOfFirst _ true

/-- The first of the people has one of two grades, and a grade in a range, but is loaded by neither. -/
theorem get_firstPerson_not_found :
    people.outcome ⟨{ minor := 9 }⟩ true person (·.get (.str "p1") (.dict [(.str "conditions",
        .dict [(.str "grade", .list [.int 9, .int 11])])])) =
      .error (.notFound (.ofType "Person" "p1")) ∧
    Condition.satisfiesAll [(.str "grade", .list [.int 9, .int 11])] firstPerson = true ∧
    people.outcome ⟨{ minor := 9 }⟩ true person (·.get (.str "p1") (.dict [(.str "conditions",
        .dict [(.str "grade", .range (.int 8) (.int 10))])])) =
      .error (.notFound (.ofType "Person" "p1")) ∧
    Condition.satisfiesAll [(.str "grade", .range (.int 8) (.int 10))] firstPerson = true ∧
    person.isType firstPerson = true ∧
    people.documents.get? "p1" = some (.dict firstPerson) := by
  have houtcome (c : Value) (hc : Finder.meets firstPerson [(.str "grade", c)] = false) :
      people.outcome ⟨{ minor := 9 }⟩ true person (·.get (.str "p1")
        (.dict [(.str "conditions", .dict [(.str "grade", c)])])) =
          .error (.notFound (.ofType "Person" "p1")) :=
    (outcome_get rfl rfl get?_people (Options.ofValue_conditions _) rfl
      (EntityType.instantiate_dict rfl _) _ true).trans (if_neg (by simp [hc]))
  exact ⟨houtcome _ (by decide +kernel), by decide +kernel, houtcome _ (by decide +kernel),
    by decide +kernel, by decide +kernel, get?_people⟩

end ViewFinder
