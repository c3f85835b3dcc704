import ViewFinder.Text.Digit
import ViewFinder.Number.Shortest

/-!
# Store versions

A store version is a triple major.minor.patch under the lexicographic order. `Version.read` finds
the first place of a text that has the form `digits.digits` or `digits.digits.digits`; a text
without one reads as `0.0.0`.
-/

namespace ViewFinder

/-- A store version. The numbers of one that is read are never negative, but a caller may make any. -/
structure Version where
  major : Int := 0
  minor : Int := 0
  patch : Int := 0
  deriving DecidableEq, Inhabited

namespace Version

/-- The lexicographic order of versions. -/
def compare (v w : Version) : Ordering :=
  (Ord.compare v.major w.major).then
    ((Ord.compare v.minor w.minor).then (Ord.compare v.patch w.patch))

/-- Is the release line (major, minor) of a version below the given one? -/
def releaseBelow (v : Version) (major minor : Int) : Bool :=
  v.major < major || (v.major == major && v.minor < minor)

/-- Is the release line of a version above the given one? -/
def releaseAbove (v : Version) (major minor : Int) : Bool :=
  major < v.major || (v.major == major && minor < v.minor)

/-- The text `major.minor.patch`. -/
def text (v : Version) : List Char :=
  decimalInt v.major ++ '.' :: (decimalInt v.minor ++ '.' :: decimalInt v.patch)

/-- A dot and the run of digits after it, if the text starts so. -/
def dotDigits? : List Char → Option (List Char × List Char)
  | '.' :: rest =>
    match rest.span Text.isDigit with
    | ([], _) => none
    | found => some found
  | _ => none

/-- The digits of the components, if the text starts with a version. The third is empty when the
patch level is left out. -/
def componentsAt? (s : List Char) : Option (List Char × List Char × List Char) :=
  match s.span Text.isDigit with
  | ([], _) => none
  | (major, rest) =>
    (dotDigits? rest).map fun (minor, rest) => (major, minor, ((dotDigits? rest).map (·.1)).getD [])

/-- The components of the first version in a text. -/
def components? : List Char → Option (List Char × List Char × List Char)
  | [] => none
  | c :: rest => (componentsAt? (c :: rest)).or (components? rest)

/-- The number written by a component; the error is the number of digits, when there are too
many. -/
def readComponent (digits : List Char) : Except Nat Nat :=
  if digits.length > Text.maxDigits then .error digits.length else .ok (Text.decimalValue digits)

/-- The first version in a text, `0.0.0` if there is none. The error is the length of a component
with too many digits. -/
def read (s : List Char) : Except Nat Version :=
  match components? s with
  | none => .ok {}
  | some (major, minor, patch) => do
    return ⟨← readComponent major, ← readComponent minor, ← readComponent patch⟩

end Version

end ViewFinder
