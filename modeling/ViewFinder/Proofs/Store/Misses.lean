import ViewFinder.Store.Index

/-!
# What is no miss

A query takes the answer that something was not found for a missing view. A store gives this answer
only where it looks a document or a view up: what it makes of a view that is there, its rows or some
other fault, is never taken for a miss (`Store.Index.noMiss_answer`).
-/

namespace ViewFinder

namespace Fault

/-- Does an operation succeed, or fail otherwise than by not finding something? -/
def NoMiss {α : Type} (x : Except Fault α) : Prop := ∀ e, x = .error e → e.isNotFound = false

section
variable {α β : Type} {x : Except Fault α} {f : α → Except Fault β}

theorem noMiss_ok (a : α) : NoMiss (.ok a) := nofun

theorem noMiss_error {e : Fault} (h : e.isNotFound = false) : NoMiss (α := α) (.error e) :=
  fun _ he => Except.error.inj he ▸ h

theorem NoMiss.bind (hx : NoMiss x) (hf : ∀ a, NoMiss (f a)) : NoMiss (x >>= f) := by
  cases x with
  | ok a => exact hf a
  | error e => exact noMiss_error (hx e rfl)

theorem NoMiss.map (hx : NoMiss x) (g : α → β) : NoMiss (x.map g) := by
  cases x with
  | ok a => exact noMiss_ok _
  | error e => exact noMiss_error (hx e rfl)

theorem noMiss_ite {c : Prop} [Decidable c] {y : Except Fault α} (hx : NoMiss x) (hy : NoMiss y) :
    NoMiss (if c then x else y) := by
  split
  · exact hx
  · exact hy

theorem noMiss_mapM (hf : ∀ a, NoMiss (f a)) (l : List α) : NoMiss (l.mapM f) := by
  induction l with
  | nil => exact noMiss_ok _
  | cons a l ih =>
    rw [List.mapM_cons]
    exact (hf a).bind fun _ => ih.bind fun _ => noMiss_ok _

end

end Fault

open Fault

/-! ## Values -/

namespace Value

theorem noMiss_entries (v : Value) : NoMiss v.entries := by
  cases v <;> first | exact noMiss_ok _ | exact noMiss_error rfl

theorem noMiss_items (v : Value) : NoMiss v.items := by
  cases v <;> first | exact noMiss_ok _ | exact noMiss_error rfl

theorem noMiss_readInteger (s : String) : NoMiss (Text.readInteger s) := by
  unfold Text.readInteger
  simp only
  cases Text.groupedDigits? _ with
  | none => exact noMiss_error rfl
  | some digits => exact noMiss_ite (noMiss_error rfl) (noMiss_ok _)

theorem noMiss_toInteger (v : Value) : NoMiss v.toInteger := by
  cases v with
  | bool b => exact noMiss_ok _
  | int n => exact noMiss_ok _
  | str s => exact noMiss_readInteger s
  | float x =>
    simp only [toInteger]
    split
    · exact noMiss_ok _
    · exact noMiss_error rfl
    · exact noMiss_error rfl
  | _ => exact noMiss_error rfl

end Value

theorem Json.noMiss_printSorted (v : Value) : NoMiss (Json.printSorted v) := by
  rw [printSorted]
  cases (sortKeys? v).bind fun v => (print? v).map String.ofList with
  | some text => exact noMiss_ok _
  | none => exact noMiss_error rfl

namespace Collation

mutual

theorem noMiss_ofValue : ∀ v : Value, NoMiss (ofValue v)
  | .null | .bool _ | .int _ | .float _ | .str _ => noMiss_ok _
  | .list vs => (noMiss_ofValues vs).map _
  | .tuple vs => (noMiss_ofValues vs).map _
  | .dict es => (Json.noMiss_printSorted (.dict es)).map Collation.other
  | .set vs => (Json.noMiss_printSorted (.set vs)).map Collation.other
  | .frozenset vs => (Json.noMiss_printSorted (.frozenset vs)).map Collation.other
  | .range low high => (Json.noMiss_printSorted (.range low high)).map Collation.other
  | .version v => (Json.noMiss_printSorted (.version v)).map Collation.other

theorem noMiss_ofValues : ∀ vs : List Value, NoMiss (ofValues vs)
  | [] => noMiss_ok _
  | v :: vs => (noMiss_ofValue v).bind fun _ => (noMiss_ofValues vs).bind fun _ => noMiss_ok _

end

end Collation

/-! ## Indexes -/

namespace Store

theorem Emission.noMiss_ofSource (source : Value) : NoMiss (ofSource source) := by
  cases source with
  | str s =>
    rw [ofSource]
    split
    · exact noMiss_error rfl
    · refine NoMiss.bind ?_ fun _ => ?_
      · cases Json.readChars _ with
        | ok v => exact noMiss_ok v
        | error e => exact noMiss_error rfl
      · split
        · exact noMiss_error rfl
        · exact noMiss_ok _
  | _ => exact noMiss_error rfl

namespace Index

theorem noMiss_keyOf? (e : Emission) (id document : Value) : NoMiss (keyOf? e id document) := by
  cases id with
  | str id =>
    refine noMiss_ite (noMiss_ok _) ((Value.noMiss_entries document).bind fun attributes => ?_)
    exact noMiss_ite (noMiss_ok _) (noMiss_ok _)
  | _ => exact noMiss_error rfl

theorem noMiss_keys (e : Emission) (documents : Entries) : NoMiss (keys e documents) := by
  induction documents with
  | nil => exact noMiss_ok _
  | cons d documents ih =>
    exact (noMiss_keyOf? e d.1 d.2).bind fun _ => ih.bind fun _ => noMiss_ok _

theorem noMiss_ofDocuments (source : Value) (documents : Entries) :
    NoMiss (ofDocuments source documents) := by
  refine (Emission.noMiss_ofSource source).bind fun e => NoMiss.bind ?_ fun _ => noMiss_ok _
  refine (noMiss_keys e documents).bind fun keys => noMiss_mapM (fun key => ?_) keys
  exact (Collation.noMiss_ofValues _).bind fun _ => noMiss_ok _

theorem noMiss_bounded (bound : Option Value) (within : Collation → Collation → Bool)
    (rows : List Row) : NoMiss (bounded bound within rows) := by
  cases bound with
  | none => exact noMiss_ok _
  | some v => exact (Collation.noMiss_ofValue v).bind fun _ => noMiss_ok _

theorem noMiss_select (params : Entries) (rows : List Row) : NoMiss (select params rows) := by
  rw [select]
  split
  · exact (Value.noMiss_items _).bind fun _ => noMiss_ok _
  · exact (noMiss_bounded _ _ _).bind fun rows => noMiss_bounded _ _ rows

theorem noMiss_reduced (params : Entries) (rows selected : List Row) :
    NoMiss (reduced params rows selected) := by
  rw [reduced]
  split
  · exact (Value.noMiss_items _).bind fun _ => noMiss_ok _
  · exact noMiss_ok _

theorem noMiss_limit? (params : Entries) : NoMiss (limit? params) := by
  rw [limit?]
  split
  · exact noMiss_ok _
  · exact (Value.noMiss_toInteger _).map _

/-- What a store makes of a map function is no miss. -/
theorem noMiss_answer (documents : Entries) (map reduce : Value) (params : Entries) :
    NoMiss (answer documents map reduce params) := by
  refine (noMiss_ofDocuments map documents).bind fun rows =>
    (noMiss_select params rows).bind fun selected => noMiss_ite ?_ ?_
  · exact (noMiss_reduced params rows selected).bind fun _ => noMiss_ok _
  · exact (Value.noMiss_toInteger _).bind fun _ => (noMiss_limit? params).bind fun _ => noMiss_ok _

end Index

end Store

end ViewFinder
