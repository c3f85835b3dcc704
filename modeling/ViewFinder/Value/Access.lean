import ViewFinder.Fault
import ViewFinder.Value.Order
import ViewFinder.Text.Blank
import ViewFinder.Sorting

/-!
# Reading loosely typed values

What is done with a value of unknown shape: asking for a member, going through its items, reading it
as a dictionary or as an integer. Each operation says which shapes it takes and which fault the
others give.
-/

namespace ViewFinder

namespace Text

/-- The digits of an integer text: single underscores may stand between digits. -/
def groupedDigits? : List Char → Option (List Char)
  | [] => none
  | [c] => if isDigit c then some [c] else none
  | c :: '_' :: rest => if isDigit c then (groupedDigits? rest).map (c :: ·) else none
  | c :: rest => if isDigit c then (groupedDigits? rest).map (c :: ·) else none

/-- The integer that a text writes: blanks around it, a sign and single underscores between digits
are allowed. -/
def readInteger (s : String) : Except Fault Int :=
  let body := trimNumber s.toList
  let (negative, digits) :=
    match body with
    | '-' :: rest => (true, rest)
    | '+' :: rest => (false, rest)
    | rest => (false, rest)
  match groupedDigits? digits with
  | none => .error (.unreadable (.notAnInteger (String.ofList ((quoted s.toList).take 200))))
  | some digits =>
    if digits.length > maxDigits then .error (.unreadable (.tooManyDigits digits.length))
    else
      let n : Int := decimalValue digits
      .ok (if negative then -n else n)

end Text

namespace Version

/-- The version that a value reads as: a version is itself, of any other value the text is
searched, and what counts as false reads as `0.0.0`. -/
def ofValue (v : Value) : Except Fault Version :=
  match v with
  | .version v => .ok v
  | v => (read (if v.truthy then v.text.toList else [])).mapError (.unreadable <| .tooManyDigits ·)

end Version

namespace Value

/-- The entries of a dictionary. -/
def entries : Value → Except Fault Entries
  | .dict es => .ok es
  | _ => .error .noMember

/-- The value of a dictionary under a name, if there is one. -/
def member? (v : Value) (name : String) : Except Fault (Option Value) :=
  (v.entries).map (Entries.get? · name)

/-- The value of a dictionary under a name, or null. -/
def member (v : Value) (name : String) : Except Fault Value :=
  (v.entries).map (Entries.getD · name)

/-- The value that a dictionary must have under a name. -/
def required (v : Value) (name : String) : Except Fault Value :=
  match v with
  | .dict es =>
    match Entries.get? es name with
    | some w => .ok w
    | none => .error .noEntry
  | _ => .error .wrongKind

/-- The items that a value is made of: those of a list, the keys of a dictionary, the letters of a
text. -/
def items : Value → Except Fault (List Value)
  | .list vs | .tuple vs | .set vs | .frozenset vs => .ok vs
  | .dict es => .ok (es.map (·.1))
  | .str s => .ok ((Text.letters s).map .str)
  | _ => .error .wrongKind

/-- The pair that an item of a sequence describes. -/
def pairAt (index : Nat) (v : Value) : Except Fault (Value × Value) :=
  match v.items with
  | .ok [key, value] => if key.hashable then .ok (key, value) else .error .wrongKind
  | .ok vs => .error (.unreadable (.notAPair index vs.length))
  | .error e => .error e

/-- The pairs that the items of a sequence describe. -/
def pairsFrom (index : Nat) : List Value → Except Fault (List (Value × Value))
  | [] => .ok []
  | v :: vs => do
    let pair ← pairAt index v
    return pair :: (← pairsFrom (index + 1) vs)

/-- A value read as a dictionary: a dictionary itself, or a sequence of pairs. -/
def toEntries (v : Value) : Except Fault Entries :=
  match v with
  | .dict es => .ok es
  | v => do return Entries.ofPairs (← pairsFrom 0 (← v.items))

/-- A value read as the attributes of an object: a dictionary all of whose keys are texts. -/
def toAttributes : Value → Except Fault Entries
  | .dict es => if es.all fun | (.str _, _) => true | _ => false then .ok es else .error .wrongKind
  | _ => .error .wrongKind

/-- A value read as an integer: the fraction of a number is dropped, a text is read. -/
def toInteger : Value → Except Fault Int
  | .bool b => .ok (if b then 1 else 0)
  | .int n => .ok n
  | .float x =>
    match x.truncate?, x with
    | some n, _ => .ok n
    | none, .nan _ => .error (.unreadable .nanInteger)
    | none, _ => .error .beyondRange
  | .str s => Text.readInteger s
  | _ => .error .wrongKind

/-- The number of items. -/
def size (v : Value) : Except Fault Nat := (v.items).map List.length

/-- The set of names and values in code-point order of the names, stable. -/
def sortByName {α : Type} (named : List (String × α)) : List (String × α) :=
  Sorting.sort (fun a b => Text.before a.1 b.1) named

end Value

end ViewFinder
