import ViewFinder.Proofs.Found
import ViewFinder.Proofs.Registry.WrittenViews

/-!
# Types in namespaces

The name of a type may have several parts, with double colons between them. In the name of its design
document slashes stand there (`Name.underscore_intercalate`), and under that name its views are
registered. The path of a view holds the name of the design document as it is, and the store takes what
comes before the first slash for it (`Profile.viewAt?_viewPath_of_slash`). So a query that has its view
registered does not find it then either, and documents are found if and only if the name of their type
has one part (`find_namespaced_iff`).
-/

namespace ViewFinder
namespace Text

theorem nearestIsCased_cons (c : Char) (s : List Char) : nearestIsCased (c :: s) =
    if inRanges caseIgnoredRanges c then nearestIsCased s else inRanges casedRanges c := by
  rw [nearestIsCased, List.dropWhile_cons]
  cases inRanges caseIgnoredRanges c <;> rfl

/-- A slash has no case, and what is beyond it does not count. -/
theorem nearestIsCased_append_slash (s t : List Char) :
    nearestIsCased (s ++ '/' :: t) = nearestIsCased s := by
  induction s with
  | nil =>
    have hignored : inRanges caseIgnoredRanges '/' = false := by decide +kernel
    have hcased : inRanges casedRanges '/' = false := by decide +kernel
    rw [List.nil_append, nearestIsCased_cons, hignored, hcased]
    rfl
  | cons c s ih => rw [List.cons_append, nearestIsCased_cons, nearestIsCased_cons, ih]

/-- What comes before a slash and what comes after it are lower-cased by themselves. -/
theorem lower_append_slash (s t : List Char) : lower (s ++ '/' :: t) = lower s ++ '/' :: lower t := by
  have hafter (before : List Char) : ∀ b, lowerFrom (b ++ '/' :: before) t = lowerFrom b t := by
    induction t with
    | nil => exact fun _ => rfl
    | cons c t ih =>
      intro b
      have hrest := ih (c :: b)
      rw [List.cons_append] at hrest
      rw [lowerFrom, lowerFrom, hrest, nearestIsCased_append_slash]
  have hbefore : ∀ b, lowerFrom b (s ++ '/' :: t) = lowerFrom b s ++ '/' :: lowerFrom [] t := by
    induction s with
    | nil =>
      intro b
      rw [← hafter b []]
      rfl
    | cons c s ih =>
      intro b
      rw [List.cons_append, lowerFrom, lowerFrom, ih, nearestIsCased_append_slash, List.append_assoc]
  exact hbefore []

end Text

namespace Name
open Text

/-! ## Names of several parts -/

/-- A colon separates the words on both of its sides. -/
theorem splitAcronyms_append_colon (s t : List Char) (b : Bool) :
    splitAcronyms b (s ++ ':' :: t) = splitAcronyms b s ++ ':' :: splitAcronyms false t := by
  have hcolon : isCapital ':' = false := by decide
  induction s generalizing b with
  | nil => simp [splitAcronyms, hcolon]
  | cons c s ih =>
    -- no small letter follows the last character, whether the text ends there or not
    have hnext : ((s ++ ':' :: t).head?.map isSmall).getD false =
        (s.head?.map isSmall).getD false := by
      cases s with
      | nil => simp [isSmall]
      | cons d s => rfl
    rw [List.cons_append, splitAcronyms, splitAcronyms, hnext, ih]
    split <;> rfl

theorem splitWords_append_colon (s t : List Char) (b : Bool) :
    splitWords b (s ++ ':' :: t) = splitWords b s ++ ':' :: splitWords false t := by
  have hcolon : isCapital ':' = false := by decide
  have hends : (isSmall ':' || isDigit ':') = false := by decide
  induction s generalizing b with
  | nil => simp [splitWords, hcolon, hends]
  | cons c s ih =>
    rw [List.cons_append, splitWords, splitWords, ih]
    split <;> rfl

theorem colonsToSlashes_append {s : List Char} (h : ':' ∉ s) (t : List Char) :
    colonsToSlashes (s ++ ':' :: ':' :: t) = s ++ '/' :: colonsToSlashes t := by
  induction s with
  | nil => rfl
  | cons c s ih =>
    rw [List.mem_cons, not_or] at h
    rw [List.cons_append, colonsToSlashes, ih h.2, List.cons_append]
    rintro rest rfl
    exact absurd rfl h.1

/-- The words of a text hold no colons that the text does not hold. -/
theorem not_mem_hyphensToUnderscores {s : List Char} (h : ':' ∉ s) :
    ':' ∉ hyphensToUnderscores (splitWords false (splitAcronyms false s)) := by
  intro hmem
  obtain ⟨c, hc, heq⟩ := List.mem_map.1 hmem
  split at heq
  · cases heq
  · subst heq
    rcases mem_splitWords hc with hc | heq
    · rcases mem_splitAcronyms hc with hc | heq
      · exact h hc
      · cases heq
    · cases heq

theorem underscoreChars_append {s : List Char} (h : ':' ∉ s) (t : List Char) :
    underscoreChars (s ++ ':' :: ':' :: t) = underscoreChars s ++ '/' :: underscoreChars t := by
  have hwords : hyphensToUnderscores (splitWords false (splitAcronyms false (s ++ ':' :: ':' :: t))) =
      hyphensToUnderscores (splitWords false (splitAcronyms false s)) ++ ':' :: ':' ::
        hyphensToUnderscores (splitWords false (splitAcronyms false t)) := by
    have hacronyms : splitAcronyms false (':' :: t) = ':' :: splitAcronyms false t :=
      splitAcronyms_append_colon [] t false
    have hsplit : splitWords false (':' :: splitAcronyms false t) =
        ':' :: splitWords false (splitAcronyms false t) :=
      splitWords_append_colon [] (splitAcronyms false t) false
    rw [splitAcronyms_append_colon, hacronyms, splitWords_append_colon, hsplit, hyphensToUnderscores,
      List.map_append]
    rfl
  have hcolon := not_mem_hyphensToUnderscores h
  rw [underscoreChars, hwords, colonsToSlashes_append hcolon, lower_append_slash, underscoreChars,
    underscoreChars, colonsToSlashes_of_not_mem hcolon]

/-- The design document of a name with several parts, between which double colons stand, has the words
of the parts in its name, between which slashes stand. -/
theorem underscore_intercalate {parts : List String} (h : ∀ part ∈ parts, ':' ∉ part.toList) :
    underscore ("::".intercalate parts) = "/".intercalate (parts.map underscore) := by
  induction parts with
  | nil => rfl
  | cons part parts ih =>
    obtain ⟨hpart, hparts⟩ := List.forall_mem_cons.1 h
    cases parts with
    | nil => simp
    | cons next parts =>
      rw [List.map_cons, List.map_cons, String.intercalate_cons_cons, String.intercalate_cons_cons,
        ← List.map_cons, ← ih hparts, ← String.toList_inj]
      have happend := underscoreChars_append hpart ("::".intercalate (next :: parts)).toList
      simp only [underscore, String.toList_append, String.toList_ofList, List.append_assoc]
      exact happend

end Name

open Store

/-! ## Paths to their views -/

/-- The path of a view in a design document whose name has a slash leads to another one, named as what
comes before the slash. -/
theorem Profile.viewAt?_viewPath_of_slash (p : Profile) {design : String} {first rest : List Char}
    (hdesign : design.toList = first ++ '/' :: rest) (hfirst : '/' ∉ first) (view : String) :
    ∃ other, Memory.viewAt? (p.viewPath design view) = some (String.ofList first, other) := by
  obtain ⟨next, others, hrest⟩ := List.exists_cons_of_ne_nil (List.splitOn_ne_nil '/' rest)
  rw [Profile.viewPath]
  cases p.version.releaseBelow 0 9 with
  | true =>
    have hpath : (s!"_view/{design}/{view}").toList = "_view".toList ++ '/' ::
        (first ++ '/' :: (rest ++ '/' :: view.toList)) := by
      simp [toString, hdesign]
    rw [if_pos rfl, Memory.viewAt?, hpath, splitOn_append_slash (by decide),
      splitOn_append_slash hfirst, List.splitOn_append_cons_self, hrest]
    exact ⟨_, rfl⟩
  | false =>
    have hpath : (s!"_design/{design}/_view/{view}").toList = "_design".toList ++ '/' ::
        (first ++ '/' :: (rest ++ '/' :: ("_view".toList ++ '/' :: view.toList))) := by
      simp [toString, hdesign]
    rw [if_neg (by decide), Memory.viewAt?, hpath, splitOn_append_slash (by decide),
      splitOn_append_slash hfirst, List.splitOn_append_cons_self, hrest,
      splitOn_append_slash (by decide)]
    cases others <;> exact ⟨_, rfl⟩

/-- A type whose name is made of identifiers with double colons between them, and whose documents are
told by the name or by an identifier. -/
structure EntityType.IsNamespaced (e : EntityType) (parts : List String) : Prop where
  name : e.name = .str ("::".intercalate parts)
  ne_nil : parts ≠ []
  identifiers : ∀ part ∈ parts, Name.isIdentifier part = true
  field : e.discriminatorField.isIdentifier = true
  value : e.discriminatorValue = e.name ∨ e.discriminatorValue.isIdentifier = true

namespace EntityType.IsNamespaced

variable {e : EntityType} {parts : List String} (he : e.IsNamespaced parts)
include he

theorem designName_eq : e.designName = .ok ("/".intercalate (parts.map Name.underscore)) := by
  rw [EntityType.designName, he.name]
  refine congrArg Except.ok (Name.underscore_intercalate fun part hpart => ?_)
  exact Text.not_mem_of_nameChars (Name.nameChars_of_isIdentifier (he.identifiers part hpart))
    (by decide)

theorem hasIdentifiers (hone : parts.length = 1) : e.HasIdentifiers := by
  obtain ⟨part, rfl⟩ := List.length_eq_one_iff.1 hone
  have hname : e.name.isIdentifier = true := by
    rw [he.name, String.intercalate_singleton]
    exact he.identifiers part (List.mem_singleton_self _)
  exact ⟨hname, he.field, he.value.elim (fun heq => heq ▸ hname) id⟩

/-- Double colons stand for themselves between double quotes, as identifiers do. -/
theorem isTagged : e.IsTagged := by
  refine he.value.elim (fun hvalue => ?_) (EntityType.isTagged_of_isIdentifier he.field)
  refine ⟨he.field, _, hvalue.trans he.name, ?_⟩
  have hcolons : ∀ c ∈ "::".toList, Text.isQuotable c = true ∧ c ≠ '[' := by
    intro c hc
    have hcolon : c = ':' := by simpa using hc
    rw [hcolon]
    exact ⟨rfl, by decide⟩
  rw [String.toList_intercalate]
  refine Text.forall_mem_intercalate hcolons (List.forall_mem_map.2 fun part hpart c hc => ?_)
  have hname := Name.nameChars_of_isIdentifier (he.identifiers part hpart) c hc
  exact ⟨Text.isQuotable_of_isNameChar hname, Text.ne_of_isNameChar hname (by decide)⟩

/-- The path of a view of such a type leads to some design document, and it is the one of the type
if and only if the name has one part. -/
theorem exists_viewAt? (p : Profile) {view : String} (hview : '/' ∉ view.toList) :
    ∃ design other, Memory.viewAt?
        (p.viewPath ("/".intercalate (parts.map Name.underscore)) view) = some (design, other) ∧
      (design = "/".intercalate (parts.map Name.underscore) ↔ parts.length = 1) ∧
      (parts.length = 1 → other = view) := by
  have hslashless : ∀ part ∈ parts, '/' ∉ (Name.underscore part).toList := by
    intro part hpart
    rw [Name.underscore, String.toList_ofList]
    exact Text.not_mem_of_nameChars (Name.nameChars_underscoreChars
      (Name.isHyphenated_of_isIdentifier (he.identifiers part hpart))) (by decide)
  cases parts with
  | nil => exact absurd rfl he.ne_nil
  | cons part parts =>
    have hpart := hslashless part (List.mem_cons_self ..)
    cases parts with
    | nil =>
      have hpath := p.viewAt?_viewPath hpart (List.splitOn_eq_singleton hview)
      exact ⟨Name.underscore part, view, by simpa using hpath, by simp, fun _ => rfl⟩
    | cons next parts =>
      have hdesign : ("/".intercalate ((part :: next :: parts).map Name.underscore)).toList =
          (Name.underscore part).toList ++ '/' ::
            ("/".intercalate ((next :: parts).map Name.underscore)).toList := by
        simp
      obtain ⟨other, hpath⟩ := p.viewAt?_viewPath_of_slash hdesign hpart view
      have hlength : (part :: next :: parts).length ≠ 1 := by simp
      refine ⟨_, other, hpath, ⟨fun heq => ?_, fun h => absurd h hlength⟩, fun h => absurd h hlength⟩
      -- the first part has no slash, the whole name has one
      rw [← String.toList_inj, String.toList_ofList, hdesign] at heq
      exact absurd (heq ▸ List.mem_append_right _ (List.mem_cons_self ..)) hpart

/-- So it leads to the view itself if and only if the name has one part. -/
theorem viewAt?_eq_iff (p : Profile) {view : String} (hview : '/' ∉ view.toList) :
    Memory.viewAt? (p.viewPath ("/".intercalate (parts.map Name.underscore)) view) =
      some ("/".intercalate (parts.map Name.underscore), view) ↔ parts.length = 1 := by
  obtain ⟨design, other, hpath, hone, hother⟩ := he.exists_viewAt? p hview
  rw [hpath, Option.some.injEq, Prod.mk.injEq, hone]
  exact ⟨And.left, fun hlength => ⟨hlength, hother hlength⟩⟩

end EntityType.IsNamespaced

/-! ## Finding documents of a type in a namespace -/

section
variable {m : Memory} {e : EntityType} {parts : List String} (he : e.IsNamespaced parts)
  (habsent : ∀ designName, m.documents.get? (Registry.designId designName) = none)
include he habsent

section
variable {s : Setting} {q : CompiledQuery} {o : Options} {operation : String} {fields : List String}
  {base : Entries} (h : Query.Compiles q e s.profile o operation fields base)
  (hdesign : e.designName = .ok s.designName)
  (hview : '/' ∉ (Query.viewName fields operation).toList)
include h hdesign hview

/-- A query of such a type has its view registered, whatever it asks for. It is answered from the view
if the name has one part; otherwise it is told once more that there is none. -/
theorem Query.Compiles.executeIndexed_ends_of_namespaced (params : Entries) (fallbackKeys : Value) :
    ∃ after, (CompiledQuery.executeIndexed { q with params, fallbackKeys } s).Ends m
        (if parts.length = 1 then Index.answer m.documents q.mapSource q.reduceSource params
          else .error (.notFound (.view (q.viewPath s.profile)))) after ∧
      Registry.Holds after s.designName q.view := by
  have hname : s.designName = "/".intercalate (parts.map Name.underscore) := by
    rw [he.designName_eq, Except.ok.injEq] at hdesign
    exact hdesign.symm
  have hsame := h.designName
  rw [hdesign, Except.ok.injEq] at hsame
  obtain ⟨design, other, hpath, hone, hother⟩ := he.exists_viewAt? s.profile hview
  rw [← hname] at hpath hone
  have hviewPath : q.viewPath s.profile =
      s.profile.viewPath s.designName (Query.viewName fields operation) := by
    rw [CompiledQuery.viewPath, h.viewName, ← hsame]
    rfl
  rw [← hviewPath] at hpath
  have hends := h.executeIndexed_ends_of_absent (habsent _) params fallbackKeys hpath
    (habsent design)
  obtain ⟨after, hafter⟩ : ∃ after, after = Registry.afterSave m s.designName
      [(.str (Query.viewName fields operation), q.view.body)] "1-mem" := ⟨_, rfl⟩
  rw [← hafter] at hends
  have hholds : Registry.Holds after s.designName q.view :=
    hafter ▸ Registry.holds_afterSave m s.designName h.viewName [] "1-mem"
  refine ⟨after, ?_, hholds⟩
  split
  · next hlength =>
    rw [hone.2 hlength, hother hlength] at hpath
    have hindexes : Registry.SameIndexes m after := hafter ▸ Registry.sameIndexes_set _
    rwa [Registry.view_of_holds hholds h.viewName hpath params, hindexes.answer_eq] at hends
  · next hlength =>
    have hne : Registry.designId s.designName ≠ Registry.designId design := fun heq =>
      hlength (hone.1 (Registry.designId_injective heq).symm)
    have hnone : after.documents.get? (Registry.designId design) = none := by
      rw [hafter, Registry.afterSave, Entries.get?_set, if_neg hne, habsent]
    rwa [Registry.view_of_absent hnone hpath params] at hends

/-- If the name has several parts the query fails at its first request, be it for all keys or for the
first of them. -/
theorem Query.Compiles.execute_ends_of_namespaced (hlength : parts.length ≠ 1)
    (hslow : ¬ o.slow.truthy = true) (hr : Query.Restriction s.profile base) (hw : o.HasWindow) :
    ∃ after, (q.execute s).Ends m (.error (.notFound (.view (q.viewPath s.profile)))) after := by
  have hrequest (params : Entries) (fallbackKeys : Value) : ∃ after,
      (CompiledQuery.executeOne { q with params, fallbackKeys } s).Ends m
        (.error (.notFound (.view (q.viewPath s.profile)))) after := by
    obtain ⟨after, hindexed, -⟩ :=
      h.executeIndexed_ends_of_namespaced he habsent hdesign hview params fallbackKeys
    rw [if_neg hlength] at hindexed
    rw [CompiledQuery.executeOne, h.slow, if_neg hslow]
    exact ⟨after, hindexed⟩
  obtain ⟨first, hfirst, hends⟩ := h.exists_first (m := m) hr hw
  have hfails : ∃ after, (first.executeOne s).Ends m
      (.error (.notFound (.view (q.viewPath s.profile)))) after := by
    rcases hfirst with rfl | ⟨key, -, rfl⟩
    · exact hrequest _ _
    · exact hrequest _ _
  obtain ⟨after, hfails⟩ := hfails
  exact ⟨after, hends hfails⟩

end

/-- Finding by conditions, on stores of every release without design documents, for a type in a
namespace. The query has its view registered in the design document of the type, and asks for it again
by its path. That leads there if and only if the name of the type has one part, and then there are
records; otherwise the view is not found the second time either, and that is the outcome. -/
theorem find_namespaced_iff {conditions : Entries} (p : Profile) (allowAdHoc : Bool)
    (hm : m.HoldsJson) (hfactory : e.factory = .document) (hsort : e.defaultSort.truthy = false)
    (hnames : ∀ c ∈ conditions, c.1.isIdentifier = true)
    (hvalues : ∀ c ∈ conditions, (Query.lowBound c.2).isJson = true ∧
      (Query.highBound c.2).isJson = true) :
    let o : Options := { conditions := .dict conditions }
    let designName := "/".intercalate (parts.map Name.underscore)
    let setting := (Database.finderOf e designName p allowAdHoc).setting
    ∃ q name, e.designName = .ok designName ∧ Query.find e p o = .ok q ∧ q.viewName = .str name ∧
      (Memory.viewAt? (q.viewPath p) = some (designName, name) ↔ parts.length = 1) ∧
      (∀ params, ∃ after, (CompiledQuery.executeIndexed { q with params } setting).Ends m
          (if parts.length = 1 then Index.answer m.documents q.mapSource q.reduceSource params
            else .error (.notFound (.view (q.viewPath p)))) after ∧
        Registry.Holds after designName q.view) ∧
      ((∃ rs, m.outcome p allowAdHoc e (·.findWith o) = .ok (.records rs)) ↔ parts.length = 1) ∧
      (parts.length ≠ 1 → m.outcome p allowAdHoc e (·.findWith o) =
        .error (.notFound (.view (q.viewPath p)))) := by
  intro o designName setting
  have hdesign : e.designName = .ok designName := he.designName_eq
  have hgiven : Query.givenNames o = .ok (conditions.map (·.1)) := rfl
  have hidentifiers : ∀ n ∈ conditions.map (·.1), n.isIdentifier = true :=
    List.forall_mem_map.2 hnames
  obtain ⟨base, hbase, -⟩ := Query.exists_conditionParams p (Query.sortedValues conditions)
  have hr := Query.restriction_asked hbase o
  have hasks : Query.AsksFor p o (Query.asked base o) := Query.asksFor_asked rfl rfl hbase
  have hw : o.HasWindow := ⟨.inl rfl, .inl rfl⟩
  obtain ⟨fields, source, keyFields, hsearched, -, -, hslashless⟩ :=
    Query.exists_readable he.isTagged hgiven fun n hn =>
      Query.clear_of_isIdentifier (hidentifiers n hn)
  obtain ⟨params, hparams, hget⟩ := hasks o.limit o.offset
  obtain ⟨q, hq, hcompiles, -⟩ :=
    Query.exists_find he.isTagged ⟨_, he.name⟩ hget hsearched hparams
  have hview : '/' ∉ (Query.viewName fields Query.findPrefix).toList :=
    Query.not_mem_viewName (by decide) hslashless (by decide)
  have hindexed := hcompiles.executeIndexed_ends_of_namespaced (s := setting) he habsent hdesign hview
  have hoffered (hlength : parts.length = 1) :
      ∃ rs, m.outcome p allowAdHoc e (·.findWith o) = .ok (.records rs) := by
    obtain ⟨_, _, h⟩ := Query.exists_answerable (s := setting) (o := o) hm
      (he.hasIdentifiers hlength) hdesign (habsent _) hgiven hidentifiers nofun
    have hsel : Index.Selectable (Query.asked base o) := Query.selectable_asked hbase
      (Query.forall_mem_sortedValues.2 hvalues) (.inl rfl) (.inl rfl)
    exact ⟨_, (h.becomes hdesign hr hasks hsel hw rfl hsort).eq_ok hfactory⟩
  have hmissing (hlength : parts.length ≠ 1) : m.outcome p allowAdHoc e (·.findWith o) =
      .error (.notFound (.view (q.viewPath p))) := by
    obtain ⟨after, hends⟩ := hcompiles.execute_ends_of_namespaced (s := setting) he habsent hdesign
      hview hlength Bool.false_ne_true hr hw
    exact (Finder.findWith_ends_error hq hends).outcome_eq hdesign
  refine ⟨q, _, hdesign, hq, hcompiles.viewName, ?_, fun params => hindexed params q.fallbackKeys,
    ⟨fun ⟨rs, hrs⟩ => ?_, hoffered⟩, hmissing⟩
  · have hsame := hcompiles.designName
    rw [hdesign, Except.ok.injEq] at hsame
    rw [← he.viewAt?_eq_iff p hview, CompiledQuery.viewPath, hcompiles.viewName, ← hsame]
    rfl
  · by_contra hlength
    rw [hmissing hlength] at hrs
    cases hrs

end

/-! ## Posts of a blog -/

/-- The type of posts in the namespace of a blog. -/
def blogPost : EntityType := { name := .str "Blog::Post" }

/-- A store of one post. -/
def posts : Memory :=
  { documents := [(.str "b1", .dict [(.str "_id", .str "b1"), (.str "doc_type", .str "Blog::Post"),
      (.str "grade", .int 9)])] }

theorem holdsJson_posts : posts.HoldsJson :=
  Memory.holdsJson_of_isJson
    (by simp [posts, Value.isJson, Value.membersJson, Value.isFreshName]) (by decide)

theorem absent_posts (designName : String) :
    posts.documents.get? (Registry.designId designName) = none := by
  simp [posts, Registry.designId, Index.designPrefix, String.ext_iff]

/-- People of a grade are found, posts of a grade are not. -/
theorem find_namespaced_people :
    (∃ rs, people.outcome ⟨{ minor := 9 }⟩ true person
      (·.findWith { conditions := .dict [(.str "grade", .int 9)] }) = .ok (.records rs)) ∧
    ¬ ∃ rs, posts.outcome ⟨{ minor := 9 }⟩ true blogPost
      (·.findWith { conditions := .dict [(.str "grade", .int 9)] }) = .ok (.records rs) := by
  have hperson : person.IsNamespaced ["Person"] :=
    ⟨rfl, by decide, by decide, by decide, .inl rfl⟩
  have hpost : blogPost.IsNamespaced ["Blog", "Post"] :=
    ⟨rfl, by decide, by decide, by decide, .inl rfl⟩
  have hnames : ∀ c ∈ [(Value.str "grade", Value.int 9)], c.1.isIdentifier = true :=
    List.forall_mem_singleton.2 (by decide)
  have hvalues : ∀ c ∈ [(Value.str "grade", Value.int 9)],
      (Query.lowBound c.2).isJson = true ∧ (Query.highBound c.2).isJson = true :=
    List.forall_mem_singleton.2 ⟨rfl, rfl⟩
  obtain ⟨-, -, -, -, -, -, -, hfound, -⟩ := find_namespaced_iff hperson absent_people
    ⟨{ minor := 9 }⟩ true holdsJson_people rfl rfl hnames hvalues
  obtain ⟨-, -, -, -, -, -, -, hmissing, -⟩ := find_namespaced_iff hpost absent_posts
    ⟨{ minor := 9 }⟩ true holdsJson_posts rfl rfl hnames hvalues
  refine ⟨hfound.2 rfl, fun hrecords => ?_⟩
  exact absurd (hmissing.1 hrecords) (by decide)

/-- The post is not found on a store of release 0.9 or 0.8, whose index has it. -/
theorem posts_not_found :
    (posts.outcome ⟨{ minor := 9 }⟩ true blogPost
      (·.findWith { conditions := .dict [(.str "grade", .int 9)] })).isOk = false ∧
    (posts.outcome ⟨{ minor := 8 }⟩ true blogPost
      (·.findWith { conditions := .dict [(.str "grade", .int 9)] })).isOk = false ∧
    (posts.rows blogPost ["grade"]).length = 1 := by
  decide +kernel

end ViewFinder
