import ViewFinder.Text.Digit
import ViewFinder.Text.Lower

/-!
# Names

A document type keeps its views in a design document whose name is the type's name with its words
separated by underscores (`underscore`). Two fields of a document may be given by a friendlier name
(`normalizeField`).
-/

namespace ViewFinder.Name

/-- The field that holds the id of a document. -/
def idField : String := "_id"

/-- The field that holds the revision of a document. -/
def revisionField : String := "_rev"

/-- The field that orders documents by age. -/
def createdAtField : String := "created_at"

/-- The field that holds the type of a document, unless the type says otherwise. -/
def defaultDiscriminatorField : String := "doc_type"

/-- The stored name of a field. -/
def normalizeField (name : String) : String :=
  if name == "id" then idField else if name == "rev" then revisionField else name

/-- A capital letter of ASCII. -/
def isCapital (c : Char) : Bool := 'A' ≤ c && c ≤ 'Z'

/-- A small letter of ASCII. -/
def isSmall (c : Char) : Bool := 'a' ≤ c && c ≤ 'z'

/-- Puts an underscore between a capital and a capital that begins a word, that is, one that a small
letter follows. -/
def splitAcronyms (afterCapital : Bool) : List Char → List Char
  | [] => []
  | c :: rest =>
    let begins := afterCapital && isCapital c && (rest.head?.map isSmall).getD false
    if begins then '_' :: c :: splitAcronyms (isCapital c) rest
    else c :: splitAcronyms (isCapital c) rest

/-- Puts an underscore between a small letter or a digit and a capital. -/
def splitWords (afterSmall : Bool) : List Char → List Char
  | [] => []
  | c :: rest =>
    let ends := isSmall c || Text.isDigit c
    if afterSmall && isCapital c then '_' :: c :: splitWords ends rest else c :: splitWords ends rest

/-- Hyphens become underscores. -/
def hyphensToUnderscores (s : List Char) : List Char := s.map fun c => if c == '-' then '_' else c

/-- Double colons become slashes. -/
def colonsToSlashes : List Char → List Char
  | ':' :: ':' :: rest => '/' :: colonsToSlashes rest
  | c :: rest => c :: colonsToSlashes rest
  | [] => []

/-- The words of a camel-case name, in lower case and separated by underscores. -/
def underscoreChars (s : List Char) : List Char :=
  Text.lower (colonsToSlashes (hyphensToUnderscores (splitWords false (splitAcronyms false s))))

/-- The words of a camel-case name, in lower case and separated by underscores. -/
def underscore (s : String) : String := String.ofList (underscoreChars s.toList)

end ViewFinder.Name
