import ViewFinder.Value

/-!
# Equality of values

`Value.equal` is the loose equality of conditions and documents: numbers agree by their exact
values whatever their kind (so `1`, `1.0` and true agree), a list never equals a tuple, the order of
dictionary entries and of set members does not matter, and a version equals the texts that read as
it. A NaN equals nothing. Inside a collection, though, the very same NaN agrees with itself
(`Value.sameItem`). `Value.sameKey` is the equality of dictionary keys and set members: that of
items, but that a version is no text.
-/

namespace ViewFinder

namespace Version

/-- The version that a value reads as, where one is expected: a version is itself, a text or a
floating-point number is read, and other values are no version. -/
def ofLoose? : Value → Option (Except Nat Version)
  | .version v => some (.ok v)
  | .str s => some (read s.toList)
  | .float x => some (read (if x.isZero then [] else x.text))
  | _ => none

/-- Does a value read as the version? -/
def agreesWith (v : Version) (w : Value) : Bool :=
  match ofLoose? w with
  | some (.ok w) => v == w
  | _ => false

end Version

namespace Value

/-- Are the values the very same NaN? -/
def isSameNaN : Value → Value → Bool
  | .float (.nan p), .float (.nan q) => p == q
  | _, _ => false

mutual

/-- Equality of values; when `loose`, a version also equals the texts and numbers that read as
it. -/
def agree (loose : Bool) : Value → Value → Bool
  | .null, w => w.isNull
  | .bool b, w => numberAgrees loose (.bool b) w
  | .int n, w => numberAgrees loose (.int n) w
  | .float x, w => numberAgrees loose (.float x) w
  | .str s, .str t => s == t
  | .str s, .version v => loose && v.agreesWith (.str s)
  | .str _, _ => false
  | .list xs, .list ys => agreeAll loose xs ys
  | .list _, _ => false
  | .tuple xs, .tuple ys => agreeAll loose xs ys
  | .tuple _, _ => false
  | .set xs, .set ys => xs.length == ys.length && allAmong xs ys
  | .set xs, .frozenset ys => xs.length == ys.length && allAmong xs ys
  | .set _, _ => false
  | .frozenset xs, .set ys => xs.length == ys.length && allAmong xs ys
  | .frozenset xs, .frozenset ys => xs.length == ys.length && allAmong xs ys
  | .frozenset _, _ => false
  | .range a b, .range c d =>
    (isSameNaN a c || agree loose a c) && (isSameNaN b d || agree loose b d)
  | .range .., _ => false
  | .version v, .version w => v == w
  | .version v, w => loose && v.agreesWith w
  | .dict xs, .dict ys => xs.length == ys.length && allHeld xs ys
  | .dict _, _ => false
where
  /-- Equality of a number with any value. -/
  numberAgrees (loose : Bool) (v w : Value) : Bool :=
    match v.quantity?, w with
    | some _, .version u => loose && u.agreesWith v
    | some q, w => (w.quantity?.map q.equal).getD false
    | none, _ => false

/-- Equality of two lists, item by item. -/
def agreeAll (loose : Bool) : List Value → List Value → Bool
  | [], [] => true
  | x :: xs, y :: ys => (isSameNaN x y || agree loose x y) && agreeAll loose xs ys
  | _, _ => false

/-- Is every value among the others, as a set member? -/
def allAmong : List Value → List Value → Bool
  | [], _ => true
  | x :: xs, ys => ys.any (fun y => isSameNaN x y || agree false x y) && allAmong xs ys

/-- Does the other dictionary hold every entry, under an equal key? -/
def allHeld : List (Value × Value) → List (Value × Value) → Bool
  | [], _ => true
  | (k, v) :: rest, others =>
    others.any (fun e => (isSameNaN k e.1 || agree false k e.1) &&
      (isSameNaN v e.2 || agree true v e.2)) && allHeld rest others

end

/-- Loose equality, as conditions compare values. -/
def equal (v w : Value) : Bool := agree true v w

/-- Equality of the items of a collection. -/
def sameItem (v w : Value) : Bool := isSameNaN v w || equal v w

/-- Equality of dictionary keys and set members. -/
def sameKey (v w : Value) : Bool := isSameNaN v w || agree false v w

/-- Is the value an item of the list? -/
def among (v : Value) (ws : List Value) : Bool := ws.any fun w => w.sameItem v

/-- The values without those that equal an earlier one, under `same`. -/
def distinct (same : Value → Value → Bool) (vs : List Value) : List Value :=
  (vs.foldl (fun kept v => if kept.any (same · v) then kept else v :: kept) []).reverse

mutual

/-- Can the value be a dictionary key or a set member? Lists, sets and dictionaries cannot, nor can
what holds one. -/
def hashable : Value → Bool
  | .list _ | .set _ | .dict _ => false
  | .tuple items => allHashable items
  | .frozenset members => allHashable members
  | .range low high => low.hashable && high.hashable
  | _ => true

/-- Can every value be a dictionary key? -/
def allHashable : List Value → Bool
  | [] => true
  | v :: vs => v.hashable && allHashable vs

end

end Value

namespace Entries

/-- The value under a key. -/
def find? (entries : Entries) (key : Value) : Option Value :=
  (List.find? (fun e => e.1.sameKey key) entries).map (·.2)

/-- The value under a textual key. -/
def get? (entries : Entries) (name : String) : Option Value := find? entries (.str name)

/-- The value under a textual key, null if there is none. -/
def getD (entries : Entries) (name : String) : Value := (get? entries name).getD .null

/-- Is there an entry under the key? -/
def contains (entries : Entries) (key : Value) : Bool := (find? entries key).isSome

/-- Puts a value under a key: an entry that is there keeps its place and its key, a new one goes to
the end. -/
def insert : Entries → Value → Value → Entries
  | [], key, value => [(key, value)]
  | (k, v) :: rest, key, value =>
    if k.sameKey key then (k, value) :: rest else (k, v) :: insert rest key value

/-- Puts a value under a textual key. -/
def set (entries : Entries) (name : String) (value : Value) : Entries :=
  insert entries (.str name) value

/-- The entries without that of a key. -/
def erase (entries : Entries) (name : String) : Entries :=
  List.filter (fun e => !e.1.sameKey (.str name)) entries

/-- Puts the entries of the second dictionary into the first, one after the other. -/
def merge (entries others : Entries) : Entries :=
  List.foldl (fun es e => insert es e.1 e.2) entries others

/-- The dictionary that a list of pairs describes, a later pair replacing an earlier one. -/
def ofPairs (pairs : List (Value × Value)) : Entries := merge [] pairs

end Entries

end ViewFinder
