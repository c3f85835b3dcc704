import ViewFinder.Proofs.Entries
import ViewFinder.Store.Index

/-!
# JSON values

`Value.isJson` singles out the values that a JSON document can hold: null, truth values, numbers
other than NaN, texts, lists, and objects with distinct names. Each of them has a JSON text
(`Json.exists_printSorted`) and a place in an index that is ordered against every other one
(`Collation.exists_ofValue`), so an index of JSON documents can always be built.
-/

namespace ViewFinder

namespace Value

/-- Is the key a text that the entries do not hold yet? -/
def isFreshName (k : Value) (rest : Entries) : Bool :=
  match k with
  | .str n => (Entries.get? rest n).isNone
  | _ => false

mutual

/-- Is the value one of JSON? -/
def isJson : Value → Bool
  | .null | .bool _ | .int _ | .str _ => true
  | .float (.nan _) => false
  | .float _ => true
  | .list items => allJson items
  | .dict entries => membersJson entries
  | _ => false

/-- Are all values JSON? -/
def allJson : List Value → Bool
  | [] => true
  | v :: vs => v.isJson && allJson vs

/-- Are the entries the members of an object, that is, JSON values under distinct texts? -/
def membersJson : List (Value × Value) → Bool
  | [] => true
  | (k, v) :: rest => k.isFreshName rest && (v.isJson && membersJson rest)

end

/-- Is the value null, a truth value, a number or a text? -/
def isScalar : Value → Bool
  | .null | .bool _ | .int _ | .float _ | .str _ => true
  | _ => false

/-- `allJson` in the natural per-element form. -/
theorem allJson_iff {vs : List Value} : allJson vs = true ↔ ∀ v ∈ vs, v.isJson = true := by
  induction vs with
  | nil => simp [allJson]
  | cons v vs ih => simp [allJson, ih]

/-- `membersJson` in the natural per-element form. -/
theorem membersJson_iff {es : Entries} :
    membersJson es = true ↔ es.Named ∧ ∀ e ∈ es, e.2.isJson = true := by
  induction es with
  | nil => simp [membersJson, Entries.Named.nil]
  | cons e es ih =>
    obtain ⟨k, v⟩ := e
    simp only [membersJson, Bool.and_eq_true, ih, List.forall_mem_cons]
    constructor
    · rintro ⟨hk, hv, hes, hvs⟩
      refine ⟨?_, hv, hvs⟩
      cases k <;> simp only [isFreshName, Bool.false_eq_true, Option.isNone_iff_eq_none] at hk
      exact hes.cons hk
    · rintro ⟨hnamed, hv, hvs⟩
      obtain ⟨n, rfl, hnone, hes⟩ := hnamed.of_cons
      exact ⟨by simp [isFreshName, hnone], hv, hes, hvs⟩

@[simp] theorem isJson_dict (es : Entries) :
    isJson (.dict es) = true ↔ es.Named ∧ ∀ e ∈ es, e.2.isJson = true := by
  rw [isJson, membersJson_iff]

/-- What an object holds under a name is JSON; so is null, in the place of what it does not hold. -/
theorem isJson_getD {es : Entries} (h : isJson (.dict es) = true) (n : String) :
    (es.getD n).isJson = true := by
  rw [Entries.getD]
  cases hn : es.get? n with
  | none => rfl
  | some v => exact ((isJson_dict es).1 h).2 _ (Entries.mem_of_get? hn)

end Value

/-! ## The JSON text -/

namespace Json

open Value

/-- The members of an object have texts if their names and values have. -/
theorem isSome_printEntries? {es : Entries}
    (h : ∀ e ∈ es, (∃ n, e.1 = .str n) ∧ (print? e.2).isSome) : (printEntries? es).isSome := by
  induction es with
  | nil => rfl
  | cons e es ih =>
    obtain ⟨⟨⟨n, hn⟩, hv⟩, hes⟩ := List.forall_mem_cons.1 h
    obtain ⟨k, v⟩ := e
    subst hn
    obtain ⟨text, htext⟩ := Option.isSome_iff_exists.1 hv
    obtain ⟨rest, hrest⟩ := Option.isSome_iff_exists.1 (ih hes)
    simp only at htext
    simp [printEntries?, keyText?, htext, hrest]

/-- The keys of an object can be sorted, which changes the order of its members only. -/
theorem exists_sortByKey? {es : Entries} (h : ∀ e ∈ es, ∃ n, e.1 = .str n) :
    ∃ sorted, sortByKey? es = some sorted ∧ sorted.Perm es := by
  have htext : es.all hasTextKey = true := List.all_eq_true.2 fun e he => by
    obtain ⟨n, hn⟩ := h e he
    rw [hasTextKey, hn]
  exact ⟨_, by rw [sortByKey?, if_pos htext], Sorting.sort_perm _ _⟩

mutual

/-- A JSON value has a JSON text with the keys of every object in order. -/
theorem exists_sortKeys? : ∀ v : Value, v.isJson = true →
    ∃ w, sortKeys? v = some w ∧ (print? w).isSome
  | .null, _ => ⟨.null, by rw [sortKeys?] <;> nofun, rfl⟩
  | .bool b, _ => ⟨.bool b, by rw [sortKeys?] <;> nofun, by cases b <;> rfl⟩
  | .int n, _ => ⟨.int n, by rw [sortKeys?] <;> nofun, rfl⟩
  | .float x, _ => ⟨.float x, by rw [sortKeys?] <;> nofun, rfl⟩
  | .str s, _ => ⟨.str s, by rw [sortKeys?] <;> nofun, rfl⟩
  | .list vs, h => by
    obtain ⟨ws, hws, hprint⟩ := exists_sortKeysAll? vs (by rwa [isJson] at h)
    obtain ⟨texts, htexts⟩ := Option.isSome_iff_exists.1 hprint
    exact ⟨.list ws, by simp [sortKeys?, hws], by simp [print?, htexts]⟩
  | .dict es, h => by
    obtain ⟨fs, hfs, hprint⟩ := exists_sortKeysEntries? es (by rwa [isJson] at h)
    obtain ⟨gs, hgs, hperm⟩ := exists_sortByKey? fun f hf => (hprint f hf).1
    have hsome := isSome_printEntries? fun g hg => hprint g (hperm.mem_iff.1 hg)
    obtain ⟨texts, htexts⟩ := Option.isSome_iff_exists.1 hsome
    exact ⟨.dict gs, by simp [sortKeys?, hfs, hgs], by simp [print?, htexts]⟩
  | .tuple _, h | .set _, h | .frozenset _, h | .range .., h | .version _, h => by
    simp [isJson] at h

/-- `exists_sortKeys?` over a list. -/
theorem exists_sortKeysAll? : ∀ vs : List Value, allJson vs = true →
    ∃ ws, sortKeysAll? vs = some ws ∧ (printItems? ws).isSome
  | [], _ => ⟨[], rfl, rfl⟩
  | v :: vs, h => by
    simp only [allJson, Bool.and_eq_true] at h
    obtain ⟨w, hw, htext⟩ := exists_sortKeys? v h.1
    obtain ⟨ws, hws, htexts⟩ := exists_sortKeysAll? vs h.2
    obtain ⟨text, htext⟩ := Option.isSome_iff_exists.1 htext
    obtain ⟨texts, htexts⟩ := Option.isSome_iff_exists.1 htexts
    exact ⟨w :: ws, by simp [sortKeysAll?, hw, hws], by simp [printItems?, htext, htexts]⟩

/-- `exists_sortKeys?` over the members of an object, whose names stay. -/
theorem exists_sortKeysEntries? : ∀ es : List (Value × Value), membersJson es = true →
    ∃ fs, sortKeysEntries? es = some fs ∧
      ∀ f ∈ fs, (∃ n, f.1 = .str n) ∧ (print? f.2).isSome
  | [], _ => ⟨[], rfl, by simp⟩
  | (k, v) :: es, h => by
    simp only [membersJson, Bool.and_eq_true] at h
    obtain ⟨w, hw, htext⟩ := exists_sortKeys? v h.2.1
    obtain ⟨fs, hfs, hprint⟩ := exists_sortKeysEntries? es h.2.2
    refine ⟨(k, w) :: fs, by simp [sortKeysEntries?, hw, hfs],
      List.forall_mem_cons.2 ⟨⟨?_, htext⟩, hprint⟩⟩
    cases k <;> simp [isFreshName] at h ⊢

end

/-- A JSON value has a JSON text with the keys of every object in order. -/
theorem exists_printSorted {v : Value} (h : v.isJson = true) : ∃ s, printSorted v = .ok s := by
  obtain ⟨w, hw, htext⟩ := exists_sortKeys? v h
  obtain ⟨text, htext⟩ := Option.isSome_iff_exists.1 htext
  exact ⟨String.ofList text, by simp [printSorted, hw, htext, orWrongKind]⟩

end Json

/-! ## The place in an index -/

namespace Collation

open Value

mutual

/-- A JSON value has a place in an index, and that is ordered against every other one. -/
theorem exists_ofValue : ∀ v : Value, v.isJson = true →
    ∃ c, ofValue v = .ok c ∧ c.isOrdered = true
  | .null, _ => ⟨.null, rfl, rfl⟩
  | .bool b, _ => ⟨.truth b, rfl, rfl⟩
  | .int n, _ => ⟨.number (.ofInt n), rfl, rfl⟩
  | .float (.infinity b), _ => ⟨.number (.infinity b), rfl, rfl⟩
  | .float (.finite b m e), _ => ⟨.number (.ofBinary64 (.finite b m e)), rfl, rfl⟩
  | .str s, _ => ⟨.text s, rfl, rfl⟩
  | .list vs, h => by
    obtain ⟨cs, hcs, hord⟩ := exists_ofValues vs (by rwa [isJson] at h)
    exact ⟨.list cs, by simp [ofValue, hcs, Except.map], by rwa [isOrdered]⟩
  | .dict es, h => by
    obtain ⟨s, hs⟩ := Json.exists_printSorted h
    exact ⟨.other s, by simp [ofValue, hs, Except.map], rfl⟩
  | .float (.nan _), h | .tuple _, h | .set _, h | .frozenset _, h | .range .., h
  | .version _, h => by simp [isJson] at h

/-- `exists_ofValue` over a list. -/
theorem exists_ofValues : ∀ vs : List Value, allJson vs = true →
    ∃ cs, ofValues vs = .ok cs ∧ allOrdered cs = true
  | [], _ => ⟨[], rfl, rfl⟩
  | v :: vs, h => by
    simp only [allJson, Bool.and_eq_true] at h
    obtain ⟨c, hc, hord⟩ := exists_ofValue v h.1
    obtain ⟨cs, hcs, hords⟩ := exists_ofValues vs h.2
    exact ⟨c :: cs, by simp [ofValues, hc, hcs, bind, Except.bind, pure, Except.pure],
      by simp [allOrdered, hord, hords]⟩

end

end Collation

end ViewFinder
