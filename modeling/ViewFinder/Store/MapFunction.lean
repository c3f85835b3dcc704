import ViewFinder.Json.Reader
import ViewFinder.Condition
import ViewFinder.Text.Word

/-!
# Reading map functions

A store that holds its documents in memory does not run map functions. It reads two things from the
source of one: the test that a document's field has a certain text, and the fields of the emitted
key.

    function(doc) {
      if(doc.doc_type == "Person") {
        emit([doc.name, doc.age], doc);
      }
    }
-/

namespace ViewFinder.Store

/-- What a map function emits: for each document with the value in the field, a key made of
fields. -/
structure Emission where
  field : String
  value : Value
  keyFields : List String
  deriving Inhabited

namespace Emission

/-- The text after a beginning that it must have. -/
def after? (beginning s : List Char) : Option (List Char) :=
  if beginning.isPrefixOf s then some (s.drop beginning.length) else none

/-- The field and the quoted value of a test at the start of the text. -/
def testAt? (s : List Char) : Option (List Char × List Char) := do
  let rest ← after? "doc.".toList s
  match rest.span Text.isWord with
  | ([], _) => none
  | (field, rest) =>
    let rest ← after? " == \"".toList rest
    match rest.span (· != '"') with
    | (_, []) => none
    | (body, _ :: _) => some (field, '"' :: (body ++ ['"']))

/-- The emitted key at the start of the text, on one line. -/
def keyAt? (s : List Char) : Option (List Char) := do
  let rest ← after? "emit([".toList s
  match rest.span fun c => c != ']' && c != '\n' with
  | (key, ']' :: _) => some key
  | _ => none

/-- What is found at the first place of a text where something is. -/
def first? {α : Type} (find? : List Char → Option α) : List Char → Option α
  | [] => find? []
  | c :: rest => (find? (c :: rest)).or (first? find? rest)

/-- The field that a component of the key names, after `doc.`. -/
def keyField (component : List Char) : String :=
  String.ofList (Text.ofPoints ((Text.points (Text.trim component)).drop "doc.".length))

/-- What is wrong with the rest of the outline of a quotation that does not read, from a place on. -/
def quotationProblem (place : Nat) : List Char → Unreadable
  | [] => .notAQuotation "Unterminated string starting at" 0
  | '\\' :: 'u' :: rest =>
    match rest with
    | a :: b :: c :: d :: rest =>
      if (Json.unit? a b c d).isSome then quotationProblem (place + 6) rest
      else .notAQuotation "Invalid \\uXXXX escape" (place + 1)
    | _ => .notAQuotation "Invalid \\uXXXX escape" (place + 1)
  | '\\' :: c :: rest =>
    if (Json.shortEscape? c).isSome then quotationProblem (place + 2) rest
    else .notAQuotation "Invalid \\escape" place
  | c :: rest =>
    if c.toNat < 32 then .notAQuotation "Invalid control character at" place
    else quotationProblem (place + 1) rest

/-- What is wrong with a text between double quotes that does not read as JSON. -/
def problemOf (quotation : List Char) : Unreadable :=
  quotationProblem 1 ((Text.outline quotation).drop 1)

/-- What the source of a map function emits. -/
def ofSource (source : Value) : Except Fault Emission :=
  match source with
  | .str source =>
    match first? testAt? source.toList with
    | none => .error .noMember
    | some (field, value) => do
      let value ← (Json.readChars value).mapError fun _ => .unreadable (problemOf value)
      match first? keyAt? source.toList with
      | none => throw .noMember
      | some key =>
        return ⟨String.ofList field, value, (Condition.splitCommas key).map keyField⟩
  | _ => .error .wrongKind

end Emission

end ViewFinder.Store
