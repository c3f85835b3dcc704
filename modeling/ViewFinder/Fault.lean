import ViewFinder.Value.Print

/-!
# Faults

Everything that can go wrong is a `Fault`: the store refuses or does not answer, a caller asks for
something the library refuses, a text does not read as what it should, or a value has the wrong
shape for what is done with it. `Fault.message` is the wording.
-/

namespace ViewFinder

/-- What a store or a finder did not find. -/
inductive Missing where
  /-- No document has the id. -/
  | document (id : String)
  /-- The design document has no such view. -/
  | view (path : String)
  /-- No document of the type has the id. -/
  | ofType (typeName id : String)
  /-- No id was given. -/
  | noId (typeName : String)
  /-- No view was defined under the name. -/
  | definition (name typeName : String)
  /-- The store reported it in its own words. -/
  | reported (message : String)
  deriving DecidableEq

/-- Why a save was refused: the stored revision has moved on. -/
inductive Conflict where
  | document (id : String)
  | address (path : String)
  | reported (message : String)
  deriving DecidableEq

/-- What the store or the network failed to do. -/
inductive Failure where
  /-- The request got no answer. -/
  | noAnswer (method path reason : String)
  /-- The answer had an error status. -/
  | status (method path : String) (code : Int)
  /-- The answer is not JSON. -/
  | notJson (path : String)
  /-- The store reported it in its own words. -/
  | reported (message : String)
  deriving DecidableEq

/-- What the library refuses to do. -/
inductive Refusal where
  | unknownOption (name : String)
  | unknownParameters (names : List String)
  | notACondition (text : String)
  | unnamedCondition (text : String)
  | viewWithoutMap (name : String)
  | noViewsMapping
  | noDatabase
  | noDesign (typeName : String)
  deriving DecidableEq

/-- Why a text or number does not read as what it should. -/
inductive Unreadable where
  /-- The literal is no integer in the base. -/
  | notAnInteger (literal : String) (base : Nat := 10)
  /-- The literal is no floating-point number. -/
  | notAFloat (literal : String)
  /-- No character has the code. -/
  | notACharacter
  /-- The number has too many digits. -/
  | tooManyDigits (count : Nat)
  /-- NaN is no integer. -/
  | nanInteger
  /-- An item of a sequence that should describe a dictionary is no pair. -/
  | notAPair (index length : Nat)
  /-- The date or the time does not exist. -/
  | notADate (problem : String)
  /-- The text is not JSON. -/
  | json
  /-- The text is nested too deeply. -/
  | tooDeep
  /-- The text is no quotation, because of what stands at the place. -/
  | notAQuotation (problem : String) (place : Nat)
  /-- The path has a character of code zero. -/
  | zeroInPath
  deriving DecidableEq

/-- The ways in which an operation can fail. -/
inductive Fault where
  | notFound (what : Missing)
  | conflict (why : Conflict)
  | unsupported (feature version : String)
  | failure (why : Failure) (status body : Value)
  | readOnly (id : Value)
  /-- The store reported that the document is read-only. -/
  | readOnlyReported (message : String)
  /-- The store answered something other than it should. -/
  | answer (value : Value)
  /-- The store reported some other error in its own words. -/
  | store (message : String)
  | refused (why : Refusal)
  | unreadable (why : Unreadable)
  /-- The text has an unpaired half of a surrogate pair, so that it has no bytes. -/
  | unpaired (text : String)
  /-- The text is not YAML. -/
  | notYaml
  /-- A value has the wrong kind for the operation. -/
  | wrongKind
  /-- A value has no member of the name. -/
  | noMember
  /-- A dictionary has no entry under the key. -/
  | noEntry
  /-- A sequence has no item at the place. -/
  | noSuchPart
  /-- A number is beyond the range. -/
  | beyondRange
  | fileExists
  | fileMissing
  | isDirectory
  | notADirectory
  /-- Nothing says where the home directory is. -/
  | noHome
  deriving Inhabited

namespace Missing

/-- The wording. -/
def message : Missing → String
  | .document id => s!"Couldn't find {id}"
  | .view path => s!"missing_named_view {path}"
  | .ofType typeName id => s!"Couldn't find {typeName} with id {id}"
  | .noId typeName => s!"Couldn't find {typeName} without an ID"
  | .definition name typeName => s!"No view named {name} defined for {typeName}"
  | .reported message => message

end Missing

namespace Conflict

/-- The wording. -/
def message : Conflict → String
  | .document id => s!"Document {id} has been updated"
  | .address path => s!"Document at {path} has been updated whilst loaded"
  | .reported message => message

end Conflict

namespace Failure

/-- The wording. -/
def message : Failure → String
  | .noAnswer method path reason => s!"{method} {path} failed: {reason}"
  | .status method path code => s!"{method} {path} returned {code}"
  | .notJson path => s!"Invalid JSON from {path}"
  | .reported message => message

end Failure

namespace Refusal

/-- The wording. -/
def message : Refusal → String
  | .unknownOption name => s!"Unknown query option: {name}"
  | .unknownParameters names => "Unknown view parameters: " ++ ", ".intercalate names
  | .notACondition text => s!"Condition must look like field=value: {text}"
  | .unnamedCondition text => s!"Condition is missing a field name: {text}"
  | .viewWithoutMap name => s!"View '{name}' has no map function"
  | .noViewsMapping => "View YAML must include a 'views' mapping"
  | .noDatabase => "No database configured"
  | .noDesign typeName => s!"No design document for {typeName} yet"

end Refusal

namespace Unreadable

/-- The wording. -/
def message : Unreadable → String
  | .notAnInteger literal base => s!"invalid literal for int() with base {base}: {literal}"
  | .notAFloat literal => s!"could not convert string to float: {literal}"
  | .notACharacter => "chr() arg not in range(0x110000)"
  | .tooManyDigits count =>
    s!"Exceeds the limit (4300 digits) for integer string conversion: value has {count} digits; " ++
      "use sys.set_int_max_str_digits() to increase the limit"
  | .nanInteger => "cannot convert float NaN to integer"
  | .notAPair index length =>
    s!"dictionary update sequence element #{index} has length {length}; 2 is required"
  | .notADate problem => problem
  | .json => "Expecting value"
  | .tooDeep => "maximum recursion depth exceeded"
  | .notAQuotation problem place => s!"{problem}: line 1 column {place + 1} (char {place})"
  | .zeroInPath => "embedded null byte"

end Unreadable

namespace Fault

/-- The wording for a text with unpaired halves: where the first ones in a row stand. -/
def unpairedMessage (text : String) : String :=
  let (before, rest) := (Text.points text.toList).span (!Text.isHalf ·)
  let halves := rest.takeWhile Text.isHalf
  let first := before.length
  let what :=
    match halves with
    | [half] =>
      let escape := String.ofList (Text.literalPoint ' ' half)
      "character '" ++ escape ++ s!"' in position {first}"
    | _ => s!"characters in position {first}-{first + halves.length - 1}"
  s!"'utf-8' codec can't encode {what}: surrogates not allowed"

/-- The wording. -/
def message : Fault → String
  | .notFound what => what.message
  | .conflict why => why.message
  | .unsupported feature version => s!"Store version {version} does not support {feature}"
  | .failure why _ _ => why.message
  | .readOnly id => s!"Document {id.text} is read-only"
  | .readOnlyReported message => message
  | .answer value => s!"Couldn't understand database response: {value.text}"
  | .store message => message
  | .refused why => why.message
  | .unreadable why => why.message
  | .unpaired text => unpairedMessage text
  | .notYaml => "The text is not YAML"
  | .wrongKind => "A value has the wrong kind"
  | .noMember => "A value has no such member"
  | .noEntry => "A dictionary has no such entry"
  | .noSuchPart => "A sequence has no item at the place"
  | .beyondRange => "A number is beyond the range"
  | .fileExists => "The file exists"
  | .fileMissing => "There is no such file or directory"
  | .isDirectory => "The file is a directory"
  | .notADirectory => "A part of the path is not a directory"
  | .noHome => "Could not determine home directory."

/-- Is it the fault of something not found? -/
def isNotFound : Fault → Bool
  | .notFound _ => true
  | _ => false

end Fault

end ViewFinder
