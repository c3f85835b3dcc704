import Mathlib.Data.List.TakeDrop
import ViewFinder.Proofs.Entries
import ViewFinder.Proofs.Text.Identifier
import ViewFinder.Query.Compiled
import ViewFinder.Store.MapFunction

/-!
# Map functions, written and read back

A query writes a map function as text, and a store in memory reads that text. For a type whose field of
the kind is an identifier, and whose kind is one but for hyphens, the store finds the test of the type as
it was written, whatever the key fields (`Query.exists_ofSource_mapFunction`); where these are
identifiers too it finds just them (`Query.ofSource_mapFunction`).
-/

namespace ViewFinder

/-- Is the value a text that is an identifier? -/
def Value.isIdentifier : Value → Bool
  | .str s => Name.isIdentifier s
  | _ => false

theorem Value.exists_of_isIdentifier {v : Value} (h : v.isIdentifier = true) :
    ∃ s, v = .str s ∧ Name.isIdentifier s = true := by
  cases v <;> first | exact ⟨_, rfl, h⟩ | cases h

/-- Is the value a text of letters and digits of ASCII, underscores and hyphens? -/
def Value.isHyphenated : Value → Bool
  | .str s => Name.isHyphenated s
  | _ => false

theorem Value.exists_of_isHyphenated {v : Value} (h : v.isHyphenated = true) :
    ∃ s, v = .str s ∧ Name.isHyphenated s = true := by
  cases v <;> first | exact ⟨_, rfl, h⟩ | cases h

theorem Value.isHyphenated_of_isIdentifier {v : Value} (h : v.isIdentifier = true) :
    v.isHyphenated = true := by
  obtain ⟨s, rfl, hs⟩ := exists_of_isIdentifier h
  exact Name.isHyphenated_of_isIdentifier hs

/-- An identifier counts as true. -/
theorem Value.truthy_of_isIdentifier {name : String} (h : Name.isIdentifier name = true) :
    (Value.str name).truthy = true :=
  Value.truthy_str_iff.2 (mt String.toList_eq_nil_iff.2 (Name.toList_ne_nil_of_isIdentifier h))

/-- A type whose name, field of the kind and kind are identifiers. -/
structure EntityType.HasIdentifiers (e : EntityType) : Prop where
  name : e.name.isIdentifier = true
  field : e.discriminatorField.isIdentifier = true
  value : e.discriminatorValue.isIdentifier = true

theorem EntityType.HasIdentifiers.isHyphenated {e : EntityType} (he : e.HasIdentifiers) :
    e.name.isHyphenated = true :=
  Value.isHyphenated_of_isIdentifier he.name

theorem EntityType.HasIdentifiers.exists_name {e : EntityType} (he : e.HasIdentifiers) :
    ∃ name, e.name = .str name :=
  (Value.exists_of_isIdentifier he.name).imp fun _ => And.left

/-- A type whose field of the kind is an identifier, and whose kind is a text of characters that stand
for themselves between double quotes, without an opening bracket. -/
structure EntityType.IsTagged (e : EntityType) : Prop where
  field : e.discriminatorField.isIdentifier = true
  value : ∃ value, e.discriminatorValue = .str value ∧
    ∀ c ∈ value.toList, Text.isQuotable c = true ∧ c ≠ '['

theorem EntityType.isTagged_of_isIdentifier {e : EntityType}
    (hfield : e.discriminatorField.isIdentifier = true)
    (hvalue : e.discriminatorValue.isIdentifier = true) : e.IsTagged := by
  obtain ⟨value, hvalue, hv⟩ := Value.exists_of_isIdentifier hvalue
  have hchars := Name.nameChars_of_isIdentifier hv
  exact ⟨hfield, value, hvalue, fun c hc => ⟨Text.isQuotable_of_isNameChar (hchars c hc),
    Text.ne_of_isNameChar (hchars c hc) (by decide)⟩⟩

theorem EntityType.HasIdentifiers.isTagged {e : EntityType} (he : e.HasIdentifiers) :
    e.IsTagged :=
  isTagged_of_isIdentifier he.field he.value

/-- A run of characters that pass a test ends where one does not. -/
theorem Text.span_append_cons {p : Char → Bool} {s : List Char} {c : Char} (rest : List Char)
    (hs : ∀ d ∈ s, p d = true) (hc : p c = false) :
    (s ++ c :: rest).span p = (s, c :: rest) :=
  span_append hs fun d hd => by
    cases hd
    exact hc

namespace Json

/-- A text that stands for itself between double quotes is read back from its quotation. -/
theorem readChars_quote {s : List Char} (h : ∀ c ∈ s, Text.isQuotable c = true) :
    readChars ('"' :: (s ++ ['"'])) = .ok (.str (String.ofList s)) := by
  have hpieces : pieces (s ++ ['"']) = .ok (s.map .char, []) := by
    induction s with
    | nil => rfl
    | cons c s ih =>
      obtain ⟨hc, hs⟩ := List.forall_mem_cons.1 h
      obtain ⟨hlow, -, hquote, hslash⟩ := Text.isQuotable_iff.1 hc
      have hcontrol : (decide (c.toNat < 32) || c == '\\') = false := by
        simp only [hslash, beq_eq_false_iff_ne, Bool.or_eq_false_iff, decide_eq_false_iff_not,
          ne_eq, not_false_eq_true, and_true]
        omega
      rw [List.cons_append, pieces, ih hs, hcontrol]
      · rfl
      all_goals simp_all
  have hjoin : joinPieces none (s.map .char) = s := by
    clear h hpieces
    induction s with
    | nil => rfl
    | cons c s ih => rw [List.map_cons, joinPieces, ih]
  have hskip : skipSpace ('"' :: (s ++ ['"'])) = '"' :: (s ++ ['"']) :=
    List.dropWhile_cons_of_neg (by decide)
  rw [readChars, hskip, value, stringRest, hpieces]
  simp only [Except.map, hjoin]
  rfl

/-- It is its own quotation but for the quotes. -/
theorem quote_of_quotable {s : List Char} (h : ∀ c ∈ s, Text.isQuotable c = true) :
    quote s = '"' :: (s ++ ['"']) := by
  rw [quote, Text.points_of_quotable h]
  congr 2
  induction s with
  | nil => rfl
  | cons c s ih =>
    obtain ⟨hc, hs⟩ := List.forall_mem_cons.1 h
    have hescape : escapePoint c.toNat = [c] := by
      have hplain : ∀ d, Text.isQuotable d = false → (c == d) = false := fun d hd =>
        beq_false_of_ne fun heq => by rw [← heq, hc] at hd; cases hd
      obtain ⟨hlow, hhigh, hquote, hslash⟩ := Text.isQuotable_iff.1 hc
      have hprint : (decide (32 ≤ c.toNat) && decide (c.toNat ≤ 126)) = true := by
        simp only [Bool.and_eq_true, decide_eq_true_eq]
        omega
      simp only [escapePoint, Char.ofNat_toNat, hplain '"' (by decide), hplain '\\' (by decide),
        hplain '\n' (by decide), hplain '\r' (by decide), hplain '\t' (by decide),
        hplain '\x0c' (by decide), hplain '\x08' (by decide), hprint, Bool.false_eq_true,
        if_false, if_true]
    rw [List.map_cons, List.flatMap_cons, hescape, ih hs]
    rfl

end Json

namespace Store.Emission

/-! ## The test -/

/-- A test of a field for a text is found where it stands. -/
theorem testAt?_test {field value : List Char} (hfield : ∀ c ∈ field, Text.isNameChar c = true)
    (hne : field ≠ []) (hvalue : ∀ c ∈ value, Text.isQuotable c = true) (rest : List Char) :
    testAt? ("doc.".toList ++ (field ++ (" == \"".toList ++ (value ++ '"' :: rest)))) =
      some (field, '"' :: (value ++ ['"'])) := by
  have hafter (beginning s : List Char) : after? beginning (beginning ++ s) = some s := by
    simp [after?]
  have hword : (field ++ (" == \"".toList ++ (value ++ '"' :: rest))).span Text.isWord =
      (field, " == \"".toList ++ (value ++ '"' :: rest)) :=
    Text.span_append_cons _ (fun c hc => Text.isWord_of_isNameChar (hfield c hc)) (by decide)
  have hquote : (value ++ '"' :: rest).span (· != '"') = (value, '"' :: rest) :=
    Text.span_append_cons _
      (fun c hc => bne_iff_ne.2 (Text.isQuotable_iff.1 (hvalue c hc)).2.2.1) (by decide)
  obtain ⟨c, field, rfl⟩ := List.exists_cons_of_ne_nil hne
  simp only [testAt?, hafter, Option.bind_eq_bind, Option.bind_some, hword, hquote]

/-- In a map function the test comes first. -/
theorem first?_testAt?_source {field value : List Char}
    (hfield : ∀ c ∈ field, Text.isNameChar c = true) (hne : field ≠ [])
    (hvalue : ∀ c ∈ value, Text.isQuotable c = true) (rest : List Char) :
    first? testAt? ("function(doc) \x7b\n  if(".toList ++ ("doc.".toList ++
      (field ++ (" == \"".toList ++ (value ++ '"' :: rest))))) =
      some (field, '"' :: (value ++ ['"'])) := by
  have hskip (s : List Char) : first? testAt? ("function(doc) \x7b\n  if(".toList ++
      ("doc.".toList ++ s)) = first? testAt? ("doc.".toList ++ s) := by
    simp [first?, testAt?, after?, List.isPrefixOf]
  rw [hskip, ← List.cons_head_tail (l := "doc.".toList) (by decide), List.cons_append, first?,
    ← List.cons_append, List.cons_head_tail, testAt?_test hfield hne hvalue, Option.some_or]

/-! ## The emitted key -/

/-- A key can only be found where a bracket stands five places on. -/
theorem getElem?_of_keyAt? {s key : List Char} (h : keyAt? s = some key) : s[5]? = some '[' := by
  rw [keyAt?, Option.bind_eq_bind, Option.bind_eq_some_iff] at h
  obtain ⟨rest, hrest, -⟩ := h
  rw [after?] at hrest
  split at hrest
  · next hbegin =>
    obtain ⟨t, rfl⟩ := List.isPrefixOf_iff_prefix.1 hbegin
    rfl
  · cases hrest

/-- Before the first bracket there is no key. -/
theorem first?_keyAt?_append {before : List Char} (h : '[' ∉ before) (s : List Char) :
    first? keyAt? (before ++ ("emit(".toList ++ '[' :: s)) =
      first? keyAt? ("emit(".toList ++ '[' :: s) := by
  induction before with
  | nil => rfl
  | cons c before ih =>
    have hnone : keyAt? (c :: before ++ ("emit(".toList ++ '[' :: s)) = none := by
      rw [Option.eq_none_iff_forall_ne_some]
      intro key hkey
      have hbracket := getElem?_of_keyAt? hkey
      rw [← List.append_assoc, List.getElem?_append_left (by simp)] at hbracket
      have hmem := List.mem_of_getElem? hbracket
      rcases List.mem_append.1 hmem with hb | he
      · exact h hb
      · exact absurd he (by decide)
    rw [List.cons_append, first?, ← List.cons_append, hnone, Option.none_or]
    exact ih fun hb => h (List.mem_cons_of_mem _ hb)

/-- A key on one line is found up to its first closing bracket. -/
theorem keyAt?_key {key : List Char} (h : ∀ c ∈ key, c ≠ ']' ∧ c ≠ '\n') (s : List Char) :
    first? keyAt? ("emit(".toList ++ '[' :: (key ++ ']' :: s)) = some key := by
  have hspan : (key ++ ']' :: s).span (fun c => c != ']' && c != '\n') = (key, ']' :: s) :=
    Text.span_append_cons _ (fun c hc => by simpa using h c hc) (by decide)
  have hafter : after? "emit([".toList ("emit(".toList ++ '[' :: (key ++ ']' :: s)) =
      some (key ++ ']' :: s) := by
    simp [after?, List.isPrefixOf]
  have hkey : keyAt? ("emit(".toList ++ '[' :: (key ++ ']' :: s)) = some key := by
    rw [keyAt?, hafter]
    simp only [Option.bind_eq_bind, Option.bind_some, hspan]
  rw [← List.cons_head_tail (l := "emit(".toList) (by decide), List.cons_append, first?,
    ← List.cons_append, List.cons_head_tail, hkey, Option.some_or]

/-- The component of a key names its field, whether a blank precedes it or not. -/
theorem keyField_component {name : List Char} (h : ∀ c ∈ name, Text.isNameChar c = true)
    (hne : name ≠ []) (blanks : List Char) (hblanks : ∀ c ∈ blanks, Text.isBlank c = true) :
    keyField (blanks ++ ("doc.".toList ++ name)) = String.ofList name := by
  have hmark : ∀ c ∈ "doc.".toList, c ≠ Text.mark := fun c hc =>
    ne_of_mem_of_not_mem hc (by decide)
  have hpoints : Text.points ("doc.".toList ++ name) =
      "doc.".toList.map Char.toNat ++ name.map Char.toNat := by
    rw [← Text.points_of_nameChars h]
    simp [Text.points_cons_of_ne (hmark _ _)]
  have hleft : Text.trimLeft (blanks ++ ("doc.".toList ++ name)) = "doc.".toList ++ name := by
    rw [Text.trimLeft, List.dropWhile_append_of_pos hblanks]
    exact List.dropWhile_cons_of_neg (by decide)
  have hright : Text.trimRight ("doc.".toList ++ name) = "doc.".toList ++ name := by
    obtain ⟨last, init, hrev⟩ := List.exists_cons_of_ne_nil (mt List.reverse_eq_nil_iff.1 hne)
    have hlast : Text.isBlank last = false := Text.isBlank_of_isNameChar <|
      h last (List.mem_reverse.1 (by rw [hrev]; exact List.mem_cons_self ..))
    rw [Text.trimRight, List.reverse_append, hrev, List.cons_append,
      List.dropWhile_cons_of_neg (by simp [hlast]), ← List.cons_append, ← hrev,
      ← List.reverse_append, List.reverse_reverse]
  rw [keyField, Text.trim, hleft, hright, hpoints]
  exact congrArg String.ofList (Text.ofPoints_of_nameChars h)

/-- Where a comma and a blank separate components, the comma separates the blank from the one
before. -/
theorem intercalate_comma (first : List Char) (rest : List (List Char)) :
    ", ".toList.intercalate (first :: rest) =
      [','].intercalate (first :: rest.map ([' '] ++ ·)) := by
  induction rest generalizing first with
  | nil => rfl
  | cons second rest ih =>
    rw [List.map_cons, List.intercalate_cons_cons, List.intercalate_cons_cons, ih,
      List.singleton_append, List.intercalate_cons_cons_left]
    simp

/-- The fields of a key are got back from its components. -/
theorem map_keyField_splitCommas {names : List (List Char)}
    (h : ∀ name ∈ names, name ≠ [] ∧ ∀ c ∈ name, Text.isNameChar c = true) (hne : names ≠ []) :
    (Condition.splitCommas
      (", ".toList.intercalate (names.map ("doc.".toList ++ ·)))).map keyField =
      names.map String.ofList := by
  obtain ⟨name, names, rfl⟩ := List.exists_cons_of_ne_nil hne
  obtain ⟨hname, hnames⟩ := List.forall_mem_cons.1 h
  have hcommas := intercalate_comma ("doc.".toList ++ name) (names.map ("doc.".toList ++ ·))
  rw [← List.map_cons (f := ("doc.".toList ++ ·)), List.map_map] at hcommas
  have hcomma {name : List Char} (hc : ∀ c ∈ name, Text.isNameChar c = true) :
      ',' ∉ "doc.".toList ++ name := by
    rw [List.mem_append, not_or]
    exact ⟨by decide, Text.not_mem_of_nameChars hc (by decide)⟩
  rw [hcommas, Condition.splitCommas, List.splitOn_intercalate]
  · rw [List.map_cons, List.map_cons, List.map_map]
    have hfirst := keyField_component hname.2 hname.1 [] (by simp)
    rw [List.nil_append] at hfirst
    rw [hfirst]
    congr 1
    refine List.map_congr_left fun name hmem => ?_
    exact keyField_component (hnames name hmem).2 (hnames name hmem).1 [' ']
      (List.forall_mem_singleton.2 (by decide))
  · simp only [List.mem_cons, List.mem_map, Function.comp_apply]
    rintro component (rfl | ⟨name, hmem, rfl⟩)
    · exact hcomma hname.2
    · rw [List.mem_append, not_or]
      exact ⟨by decide, hcomma (hnames name hmem).2⟩
  · exact List.cons_ne_nil _ _

end Store.Emission

/-! ## The whole source -/

/-- What the map functions of the type emit, under a key of some fields. -/
def EntityType.emission (e : EntityType) (fields : List String) : Store.Emission :=
  ⟨e.discriminatorField.text, e.discriminatorValue, fields⟩

namespace Query

open Store.Emission

/-- The components of the key of some fields. -/
def keyText (fields : List String) : List Char :=
  ", ".toList.intercalate ((fields.map String.toList).map ("doc.".toList ++ ·))

/-- The source of a map function from where it emits. -/
def keySource (fields : List String) : List Char :=
  "emit(".toList ++ '[' :: (keyText fields ++ ']' :: ", doc);\n  \x7d\n\x7d".toList)

/-- The key that a map function emits stays on one line. -/
theorem not_mem_keyText {c : Char} (hc : c ∉ ", doc.".toList) {fields : List String}
    (h : ∀ f ∈ fields, c ∉ f.toList) : c ∉ keyText fields := by
  have hsep : ∀ d ∈ ", ".toList, d ≠ c := fun d hd heq =>
    hc (heq ▸ List.mem_append_left "doc.".toList hd)
  have hdoc : ∀ d ∈ "doc.".toList, d ≠ c := fun d hd heq =>
    hc (heq ▸ List.mem_append_right ", ".toList hd)
  have hkey : ∀ d ∈ keyText fields, d ≠ c := by
    refine Text.forall_mem_intercalate hsep ?_
    simp only [List.forall_mem_map, List.forall_mem_append]
    exact fun f hf => ⟨hdoc, fun d hd heq => h f hf (heq ▸ hd)⟩
  exact fun hmem => hkey c hmem rfl

section
variable {e : EntityType} (he : e.IsTagged)
include he

/-- The source of a map function: the test of the type, and the key between brackets. -/
theorem exists_mapFunction (fields : List String) : ∃ source field value : String,
    mapFunction e fields = .ok source ∧ e.discriminatorField = .str field ∧
      e.discriminatorValue = .str value ∧
      source.toList = "function(doc) \x7b\n  if(".toList ++ ("doc.".toList ++ (field.toList ++
        (" == \"".toList ++ (value.toList ++ '"' ::
          (") \x7b\n    ".toList ++ keySource fields))))) := by
  obtain ⟨field, hfield, -⟩ := Value.exists_of_isIdentifier he.field
  obtain ⟨value, hvalue, hv⟩ := he.value
  have hquote := Json.quote_of_quotable fun c hc => (hv c hc).1
  have hprint : Json.print (.str value) = .ok (String.ofList ('"' :: (value.toList ++ ['"']))) := by
    rw [← hquote]
    rfl
  have hkey : (", ".intercalate (fields.map ("doc." ++ ·))).toList = keyText fields := by
    rw [keyText, String.toList_intercalate, List.map_map, List.map_map]
    exact congrArg _ (List.map_congr_left fun f _ => String.toList_append)
  refine ⟨_, field, value, by rw [mapFunction, hvalue, hprint]; rfl, hfield, hvalue, ?_⟩
  simp only [hfield, Value.text, String.toList_append, hkey, String.toList_ofList, keySource]
  simp

/-- A store reads off a map function the test of the type, and the key from where it emits. -/
theorem exists_mapFunction_ofSource (fields : List String) : ∃ source,
    mapFunction e fields = .ok source ∧ Store.Emission.ofSource (.str source) =
      match first? keyAt? (keySource fields) with
      | none => .error .noMember
      | some key => .ok (e.emission ((Condition.splitCommas key).map keyField)) := by
  obtain ⟨source, field, value, hsource, hfield, hvalue, hchars⟩ := exists_mapFunction he fields
  have hf : (Value.str field).isIdentifier = true := hfield ▸ he.field
  obtain ⟨value', hvalue', hv⟩ := he.value
  rw [hvalue, Value.str.injEq] at hvalue'
  subst hvalue'
  have hfc := Name.nameChars_of_isIdentifier hf
  have hvc : ∀ c ∈ value.toList, Text.isQuotable c = true := fun c hc => (hv c hc).1
  have htest := first?_testAt?_source hfc (Name.toList_ne_nil_of_isIdentifier hf) hvc
    (") \x7b\n    ".toList ++ keySource fields)
  rw [← hchars] at htest
  have hbracket : '[' ∉ "function(doc) \x7b\n  if(doc.".toList ++ (field.toList ++
      (" == \"".toList ++ (value.toList ++ "\") \x7b\n    ".toList))) := by
    simp only [List.mem_append, not_or]
    exact ⟨by decide, Text.not_mem_of_nameChars hfc (by decide), by decide,
      fun hmem => (hv _ hmem).2 rfl, by decide⟩
  have hemit : first? keyAt? source.toList = first? keyAt? (keySource fields) := by
    rw [keySource, ← first?_keyAt?_append hbracket
      (keyText fields ++ ']' :: ", doc);\n  \x7d\n\x7d".toList), hchars, keySource]
    simp
  refine ⟨source, hsource, ?_⟩
  rw [Store.Emission.ofSource, htest]
  simp only [Json.readChars_quote hvc, hemit, EntityType.emission, hfield, hvalue]
  cases first? keyAt? (keySource fields) with
  | none => rfl
  | some key =>
    simp only [Except.mapError, bind, Except.bind, String.ofList_toList]
    rfl

/-- What a store reads off a map function is the test of the type and some key. -/
theorem eq_emission_of_ofSource {fields : List String} {source : String} {emission : Store.Emission}
    (hsource : mapFunction e fields = .ok source)
    (h : Store.Emission.ofSource (.str source) = .ok emission) :
    ∃ keyFields, emission = e.emission keyFields := by
  obtain ⟨source', hsource', hread⟩ := exists_mapFunction_ofSource he fields
  rw [hsource] at hsource'
  cases hsource'
  rw [hread] at h
  cases hkey : first? keyAt? (keySource fields) with
  | none => simp [hkey] at h
  | some key =>
    simp only [hkey, Except.ok.injEq] at h
    exact ⟨_, h.symm⟩

/-- A store reads a map function: it emits a key of some fields for each document of the type. -/
theorem exists_ofSource_mapFunction {fields : List String}
    (h : ∀ f ∈ fields, '\n' ∉ f.toList) : ∃ source keyFields,
      mapFunction e fields = .ok source ∧
        Store.Emission.ofSource (.str source) = .ok (e.emission keyFields) := by
  obtain ⟨source, hsource, hread⟩ := exists_mapFunction_ofSource he fields
  -- a field may have a bracket of its own, which ends the key
  obtain ⟨key, rest, hsplit, hkey⟩ := List.eq_append_cons_of_mem
    (List.mem_append_right (keyText fields) (List.mem_cons_self (a := ']')
      (l := ", doc);\n  \x7d\n\x7d".toList)))
  have hline : '\n' ∉ key := fun hmem => by
    have htext := not_mem_keyText (c := '\n') (by decide) h
    rcases List.append_eq_append_iff.1 hsplit with ⟨x, hx, hrest⟩ | ⟨x, hx, -⟩
    · cases x with
      | nil => exact htext (by simpa [hx] using hmem)
      | cons c x =>
        rw [List.cons_append, List.cons.injEq] at hrest
        exact hkey (by simp [hx, ← hrest.1])
    · exact htext (by rw [hx]; exact List.mem_append_left _ hmem)
  have hfirst : first? keyAt? (keySource fields) = some key := by
    rw [keySource, hsplit]
    exact keyAt?_key (fun c hc => ⟨fun h => hkey (h ▸ hc), fun h => hline (h ▸ hc)⟩) rest
  exact ⟨source, _, hsource, by rw [hread, hfirst]⟩

/-- Where the fields are identifiers a store reads them back. -/
theorem ofSource_mapFunction {fields : List String}
    (h : ∀ f ∈ fields, Name.isIdentifier f = true) (hne : fields ≠ []) :
    ∃ source, mapFunction e fields = .ok source ∧
      Store.Emission.ofSource (.str source) = .ok (e.emission fields) := by
  obtain ⟨source, hsource, hread⟩ := exists_mapFunction_ofSource he fields
  have hclean {c : Char} (hc : c ∉ ", doc.".toList) (hn : Text.isNameChar c = false) :
      c ∉ keyText fields := not_mem_keyText hc fun f hf =>
    Text.not_mem_of_nameChars (Name.nameChars_of_isIdentifier (h f hf)) hn
  have hkey : first? keyAt? (keySource fields) = some (keyText fields) :=
    keyAt?_key (fun c hc => ⟨fun h => hclean (c := ']') (by decide) (by decide) (h ▸ hc),
      fun h => hclean (c := '\n') (by decide) (by decide) (h ▸ hc)⟩) _
  have hnames : ∀ f ∈ fields.map String.toList, f ≠ [] ∧ ∀ c ∈ f, Text.isNameChar c = true :=
    List.forall_mem_map.2 fun f hf => ⟨Name.toList_ne_nil_of_isIdentifier (h f hf),
      Name.nameChars_of_isIdentifier (h f hf)⟩
  have hfields : (Condition.splitCommas (keyText fields)).map keyField = fields := by
    rw [keyText, map_keyField_splitCommas hnames (by simpa using hne), List.map_map]
    simp
  refine ⟨source, hsource, ?_⟩
  rw [hread, hkey]
  simp only [hfields]

end

end Query

end ViewFinder
