import Mathlib.Data.Bool.AllAny
import Mathlib.Data.List.Infix
import ViewFinder.Proofs.Text.Separator
import ViewFinder.Proofs.Text.Utf8
import ViewFinder.Store.Web

/-!
# Paths of documents

The id of a document stands in its path as one segment (`Web.Segment`), which has no characters but those
that need no escape and escapes of bytes; only the beginning of the ids of design documents keeps its
slash (`Web.Stands`). The id is read back from there (`Web.exists_escapeId`), so no two documents of
a database share a path (`Web.documentPath_recoverable`).
-/

namespace ViewFinder.Store.Web

open Text

/-! ## Segments -/

/-- The characters that need no escape. -/
def unreserved : List Char :=
  "ABCDEFGHIJKLMNOPQRSTUVWXYZabcdefghijklmnopqrstuvwxyz0123456789-._~".toList

/-- The digits of escapes. -/
def hexDigits : List Char := "0123456789ABCDEF".toList

/-- A text of characters that need no escape and of escapes, each of a percent sign and two digits. -/
inductive Segment : List Char → Prop
  | nil : Segment []
  | plain {c : Char} {s : List Char} (hc : c ∈ unreserved) (hs : Segment s) : Segment (c :: s)
  | escape {a b : Char} {s : List Char} (ha : a ∈ hexDigits) (hb : b ∈ hexDigits) (hs : Segment s) :
    Segment ('%' :: a :: b :: s)

/-- What an id may stand as in a path: a segment, after the literal beginning if it is that of a design
document. -/
inductive Stands (id : List Char) : List Char → Prop
  | document {s : List Char} (hid : ¬ "_design/".toList <+: id) (hs : Segment s) : Stands id s
  | design {s : List Char} (hid : "_design/".toList <+: id) (hs : Segment s) :
    Stands id ("_design/".toList ++ s)

/-- The bytes that a text with escapes stands for. -/
def unescapeBytes? : List Char → Option (List Nat)
  | [] => some []
  | '%' :: a :: b :: s => do
    return ((← Json.hexValue? a) * 16 + (← Json.hexValue? b)) :: (← unescapeBytes? s)
  | '%' :: _ => none
  | c :: s => (unescapeBytes? s).map (utf8 c ++ ·)

/-- The text that one with escapes stands for, its bytes read as UTF-8. -/
def unescape? (s : List Char) : Option (List Char) := (unescapeBytes? s).bind utf8Decode?

/-- A character as it stands in a segment. -/
def escaped (c : Char) : List Char := if isUnreserved c then [c] else (utf8 c).flatMap byteEscape

theorem mem_unreserved {c : Char} (h : isUnreserved c = true) : c ∈ unreserved := by
  have hc : c.toNat < 128 := by
    rw [isUnreserved, Bool.and_eq_true, decide_eq_true_eq] at h
    exact h.1
  exact of_forall_ascii (P := fun c => isUnreserved c = true → c ∈ unreserved) (by decide +kernel) hc h

/-- A digit of an escape has the value that it was written for. -/
theorem hexDigit_mem {n : Nat} (h : n < 16) :
    hexDigit n ∈ hexDigits ∧ Json.hexValue? (hexDigit n) = some n := by
  have hall : ∀ n < 16, hexDigit n ∈ hexDigits ∧ Json.hexValue? (hexDigit n) = some n := by decide
  exact hall n h

/-! ## What a segment is made of -/

theorem Segment.append {s rest : List Char} (h : Segment s) (hrest : Segment rest) : Segment (s ++ rest) := by
  induction h with
  | nil => exact hrest
  | plain hc _ ih => exact .plain hc ih
  | escape ha hb _ ih => exact .escape ha hb ih

theorem segment_escaped (c : Char) : Segment (escaped c) := by
  rw [escaped]
  split
  · next h => exact .plain (mem_unreserved h) .nil
  · have hbytes {bytes : List Nat} (h : ∀ b ∈ bytes, b < 0x100) : Segment (bytes.flatMap byteEscape) := by
      induction bytes with
      | nil => exact .nil
      | cons b bytes ih =>
        obtain ⟨hb, hbytes⟩ := List.forall_mem_cons.1 h
        exact .escape (hexDigit_mem (by omega)).1 (hexDigit_mem (by omega)).1 (ih hbytes)
    exact hbytes fun b => lt_of_mem_utf8

theorem segment_flatMap_escaped (cs : List Char) : Segment (cs.flatMap escaped) := by
  induction cs with
  | nil => exact .nil
  | cons c cs ih => exact (segment_escaped c).append ih

/-! ## Reading it back -/

theorem unescapeBytes?_byteEscape {b : Nat} (hb : b < 0x100) (rest : List Char) :
    unescapeBytes? (byteEscape b ++ rest) = (unescapeBytes? rest).map (b :: ·) := by
  have hhigh := (hexDigit_mem (n := b / 16) (by omega)).2
  have hlow := (hexDigit_mem (n := b % 16) (by omega)).2
  have hbyte : b / 16 * 16 + b % 16 = b := by omega
  show unescapeBytes? ('%' :: hexDigit (b / 16) :: hexDigit (b % 16) :: rest) = _
  rw [unescapeBytes?, hhigh, hlow]
  cases unescapeBytes? rest with
  | none => rfl
  | some bytes => exact congrArg (fun n => some (n :: bytes)) hbyte

theorem unescapeBytes?_flatMap_byteEscape {bytes : List Nat} (h : ∀ b ∈ bytes, b < 0x100) (rest : List Char) :
    unescapeBytes? (bytes.flatMap byteEscape ++ rest) = (unescapeBytes? rest).map (bytes ++ ·) := by
  induction bytes with
  | nil => exact (Option.map_id' (x := unescapeBytes? rest)).symm
  | cons b bytes ih =>
    obtain ⟨hb, hbytes⟩ := List.forall_mem_cons.1 h
    rw [List.flatMap_cons, List.append_assoc, unescapeBytes?_byteEscape hb, ih hbytes, Option.map_map]
    rfl

theorem unescapeBytes?_cons {c : Char} (hc : c ≠ '%') (rest : List Char) :
    unescapeBytes? (c :: rest) = (unescapeBytes? rest).map (utf8 c ++ ·) := by
  rw [unescapeBytes?]
  · exact fun _ _ _ heq => absurd heq hc
  · exact hc

/-- However a character stands in a segment, its bytes are read there. -/
theorem unescapeBytes?_escaped (c : Char) (rest : List Char) :
    unescapeBytes? (escaped c ++ rest) = (unescapeBytes? rest).map (utf8 c ++ ·) := by
  rw [escaped]
  split
  · next h =>
    refine unescapeBytes?_cons ?_ rest
    rintro rfl
    cases h
  · exact unescapeBytes?_flatMap_byteEscape (fun b => lt_of_mem_utf8) rest

theorem unescapeBytes?_flatMap_escaped (cs : List Char) :
    unescapeBytes? (cs.flatMap escaped) = some (cs.flatMap utf8) := by
  induction cs with
  | nil => rfl
  | cons c cs ih => rw [List.flatMap_cons, unescapeBytes?_escaped, ih, Option.map_some, List.flatMap_cons]

/-- Characters that are not escaped are read as they are. -/
theorem unescapeBytes?_append {s : List Char} (h : '%' ∉ s) (rest : List Char) :
    unescapeBytes? (s ++ rest) = (unescapeBytes? rest).map (s.flatMap utf8 ++ ·) := by
  induction s with
  | nil => exact (Option.map_id' (x := unescapeBytes? rest)).symm
  | cons c s ih =>
    rw [List.mem_cons, not_or] at h
    rw [List.cons_append, unescapeBytes?_cons (Ne.symm h.1), ih h.2, Option.map_map]
    congr 1
    funext bytes
    rw [Function.comp_apply, List.flatMap_cons, List.append_assoc]

/-! ## Ids -/

theorem escape_ofChars (cs : List Char) : escape (ofChars cs) = .ok (cs.flatMap escaped) := by
  rw [escape, chars?_ofChars]
  rfl

/-- The id of a design document keeps its beginning. -/
theorem escapeId_design (cs : List Char) : escapeId (ofChars ("_design/".toList ++ cs)) =
    .ok ("_design/".toList ++ cs.flatMap escaped) := by
  have hchars : ofChars ("_design/".toList ++ cs) = "_design/".toList ++ ofChars cs := by
    rw [ofChars, ofPoints, List.map_append, List.flatMap_append]
    rfl
  have hafter : Emission.after? Index.designPrefix.toList (ofChars ("_design/".toList ++ cs)) =
      some (ofChars cs) := by
    rw [hchars]
    rfl
  rw [escapeId, hafter]
  simp only [escape_ofChars]
  rfl

/-- Any other id is escaped as a whole. -/
theorem escapeId_document {cs : List Char} (h : ¬ "_design/".toList <+: cs) :
    escapeId (ofChars cs) = .ok (cs.flatMap escaped) := by
  have hlow : ∀ c ∈ "_design/".toList, c.toNat < 0xD800 := List.all_iff_forall_prop.1 (by decide)
  have hwrites : ∀ c ∈ "_design/".toList, Writes ofPoint c := fun c hc => writes_ofPoint (hlow c hc)
  have hlt : ∀ n ∈ cs.map Char.toNat, n < 0x110000 := List.forall_mem_map.2 fun c _ => toNat_lt c
  have hother : ¬ Index.designPrefix.toList.isPrefixOf (ofChars cs) = true := by
    rw [List.isPrefixOf_iff_prefix]
    intro hstart
    obtain ⟨start, hstart, heq⟩ := List.prefix_map_iff.1 ((prefix_flatMap_iff hlt hwrites).1 hstart)
    have hsame : "_design/".toList = start :=
      List.map_injective_iff.2 (fun c d => Char.toNat_inj.1) heq
    exact h (hsame ▸ hstart)
  rw [escapeId, Emission.after?, if_neg hother]
  exact escape_ofChars cs

/-- The id of a document stands in its path, and is read back from there. -/
theorem exists_escapeId (cs : List Char) :
    ∃ text, escapeId (ofChars cs) = .ok text ∧ Stands cs text ∧ unescape? text = some cs := by
  have hread {text bytes : List Char} (h : unescapeBytes? text = some (bytes.flatMap utf8)) :
      unescape? text = some bytes := by
    rw [unescape?, h, Option.bind_some, utf8Decode?_flatMap]
  by_cases hid : "_design/".toList <+: cs
  · obtain ⟨rest, rfl⟩ := hid
    refine ⟨_, escapeId_design rest, .design ⟨rest, rfl⟩ (segment_flatMap_escaped rest), hread ?_⟩
    rw [unescapeBytes?_append (by decide), unescapeBytes?_flatMap_escaped, Option.map_some,
      List.flatMap_append]
  · exact ⟨_, escapeId_document hid, .document hid (segment_flatMap_escaped cs),
      hread (unescapeBytes?_flatMap_escaped cs)⟩

/-! ## Paths -/

/-- What stands for an id has no characters beyond ASCII, so that each stands for itself. -/
theorem Stands.unmarked {id text : List Char} (h : Stands id text) : ∀ c ∈ text, c ≠ mark := by
  have hsegment {s : List Char} (hs : Segment s) : ∀ c ∈ s, c ≠ mark := by
    have hplain : ∀ c ∈ unreserved, c ≠ mark := List.all_iff_forall_prop.1 (by decide)
    have hdigit : ∀ c ∈ hexDigits, c ≠ mark := List.all_iff_forall_prop.1 (by decide)
    induction hs with
    | nil => exact nofun
    | plain hc _ ih => exact List.forall_mem_cons.2 ⟨hplain _ hc, ih⟩
    | escape ha hb _ ih =>
      simp only [List.forall_mem_cons]
      exact ⟨by decide, hdigit _ ha, hdigit _ hb, ih⟩
  cases h with
  | document _ hs => exact hsegment hs
  | design _ hs => exact List.forall_mem_append.2 ⟨List.all_iff_forall_prop.1 (by decide), hsegment hs⟩

/-- Where two paths in a database are the same text, so is what stands in them. -/
theorem eq_of_points_path (database : String) {text other : List Char} (h : ∀ c ∈ text, c ≠ mark)
    (ho : ∀ c ∈ other, c ≠ mark)
    (heq : points ("/" ++ database ++ "/" ++ String.ofList text).toList =
      points ("/" ++ database ++ "/" ++ String.ofList other).toList) : text = other := by
  have hpath (s : List Char) : ("/" ++ database ++ "/" ++ String.ofList s).toList =
      ('/' :: database.toList) ++ '/' :: s := by
    simp [String.toList_append]
  have hslash : '/' ≠ mark := by decide
  rw [hpath, hpath, points_append_cons hslash _ text, points_append_cons hslash _ other,
    List.append_cancel_left_eq, points_of_unmarked h, points_of_unmarked ho] at heq
  exact List.map_injective_iff.2 (fun c d => Char.toNat_inj.1) heq

/-- The path of a document is made of the database and of what stands for its id: characters that need no
escape and escapes, and in the path of a design document the slash of its literal beginning. The id is read
back from there. Different documents have different paths. -/
theorem documentPath_recoverable (database id : String) :
    ∃ text, documentPath database (.str (ofString id)) = .ok ("/" ++ database ++ "/" ++ String.ofList text) ∧
      Stands id.toList text ∧ unescape? text = some id.toList ∧
      ∀ other, other ≠ id → ∃ path, documentPath database (.str (ofString other)) = .ok path ∧
        points path.toList ≠ points ("/" ++ database ++ "/" ++ String.ofList text).toList := by
  have hpath {id : String} {text : List Char} (h : escapeId (ofChars id.toList) = .ok text) :
      documentPath database (.str (ofString id)) = .ok ("/" ++ database ++ "/" ++ String.ofList text) := by
    simp only [documentPath, ofString, String.toList_ofList, h]
    rfl
  obtain ⟨text, htext, hstands, hread⟩ := exists_escapeId id.toList
  refine ⟨text, hpath htext, hstands, hread, fun other hne => ?_⟩
  obtain ⟨text', htext', hstands', hread'⟩ := exists_escapeId other.toList
  refine ⟨_, hpath htext', fun heq => hne ?_⟩
  have hsame : text' = text := eq_of_points_path database hstands'.unmarked hstands.unmarked heq
  rw [hsame, hread, Option.some_inj, String.toList_inj] at hread'
  exact hread'.symm

/-- The path of a design document whose name has a slash is not that of the document with this name. -/
theorem documentPath_recoverable_nested : ∃ text,
    documentPath "people" (.str (ofString "_design/a/é")) = .ok ("/" ++ "people" ++ "/" ++ String.ofList text) ∧
      Stands "_design/a/é".toList text ∧ unescape? text = some "_design/a/é".toList ∧
      ∃ path, documentPath "people" (.str (ofString "a/é")) = .ok path ∧
        points path.toList ≠ points ("/" ++ "people" ++ "/" ++ String.ofList text).toList := by
  obtain ⟨text, hpath, hstands, hread, hdiffer⟩ := documentPath_recoverable "people" "_design/a/é"
  exact ⟨text, hpath, hstands, hread, hdiffer "a/é" (by decide)⟩

example : documentPath "people" (.str "_design/a/é") = .ok "/people/_design/a%2F%C3%A9" := by rfl

end ViewFinder.Store.Web
