import ViewFinder.Json.Reader
import ViewFinder.Sorting

/-!
# Conditions

A condition asks a field for an exact value, for one of several values (a list, tuple or set) or for
a value in an inclusive range. `Condition.parse` reads one written as `field=value`, where the
value is `low..high`, a list separated by commas, a JSON scalar or a bare text.
-/

namespace ViewFinder.Condition

/-- Does the value list several acceptable ones? -/
def isDiscrete : Value → Bool
  | .list _ | .tuple _ | .set _ | .frozenset _ => true
  | _ => false

/-- Is the value a range? -/
def isRange : Value → Bool
  | .range .. => true
  | _ => false

/-- The values in code-point order of their literal texts. -/
def sortByLiteral (vs : List Value) : List Value :=
  Sorting.sort (fun v w => Text.before v.literal w.literal) vs

/-- The members of a set in ascending order, or by their literal texts if they are not all
comparable. -/
def orderedMembers (vs : List Value) : List Value := (Value.sorted? vs).getD (sortByLiteral vs)

/-- The acceptable values that a discrete value lists, in a fixed order. -/
def members : Value → Except Fault (List Value)
  | .set vs | .frozenset vs => .ok (orderedMembers vs)
  | v => v.items

/-- The part before the first place where a separator occurs and the part after it. -/
def splitFirst (separator : List Char) : List Char → Option (List Char × List Char)
  | [] => if separator.isEmpty then some ([], []) else none
  | c :: rest =>
    if separator.isPrefixOf (c :: rest) then some ([], (c :: rest).drop separator.length)
    else (splitFirst separator rest).map fun (before, after) => (c :: before, after)

/-- The parts between commas. -/
def splitCommas (s : List Char) : List (List Char) := s.splitOn ','

/-- A single value: a JSON text, or else the text itself. -/
def scalar (s : List Char) : Except Fault Value :=
  match Json.readChars s with
  | .ok v => .ok v
  | .error .tooDeep => .error (.unreadable .tooDeep)
  | .error _ => .ok (.str (String.ofList s))

/-- The value of a condition. -/
def parseValue (s : List Char) : Except Fault Value :=
  match splitFirst ['.', '.'] s with
  | some (low, high) => do return .range (← scalar low) (← scalar high)
  | none =>
    if s.contains ',' then do
      return .list (← ((splitCommas s).filter (!·.isEmpty)).mapM scalar)
    else scalar s

/-- The field and the value of a condition written as `field=value`. -/
def parse (text : String) : Except Fault (String × Value) :=
  match splitFirst ['='] text.toList with
  | none => .error (.refused (.notACondition text))
  | some (name, value) =>
    let name := Text.trim name
    if name.isEmpty then .error (.refused (.unnamedCondition text))
    else do return (String.ofList name, ← parseValue value)

/-- The field and the value of a condition given as a value, which should be a text. A collection is
looked through for the sign as a text is, but cannot be split. -/
def ofValue : Value → Except Fault (String × Value)
  | .str text => parse text
  | v => do
    let members ← v.items
    throw (if (Value.str "=").among members then .noMember else .refused (.notACondition v.text))

end ViewFinder.Condition
