import ViewFinder.Fault
import ViewFinder.Files.Path
import ViewFinder.Text.LineEnd

/-!
# Trees of files in memory

A `Disk` holds the texts of files under the places where they are. Paths lead through it as they
would through a file system: every step must start from a directory.
-/

namespace ViewFinder

/-- Where something is: the names on the way from the root. -/
abbrev Place := List String

/-- What is at a place. -/
inductive Content where
  | directory
  | file (text : String)
  deriving DecidableEq, Inhabited

/-- Directories and files by their places, with a working directory. -/
structure Disk where
  contents : List (Place × Content) := []
  workingDirectory : Place := []
  deriving Inhabited

namespace Disk

variable (d : Disk)

/-- What is at a place. The root is always a directory. -/
def at? (place : Place) : Option Content :=
  if place.isEmpty then some .directory else d.contents.lookup place

/-- The disk with something at a place, in place of what is there. -/
def put (place : Place) (content : Content) : Disk :=
  { d with contents := (place, content) :: d.contents.filter (·.1 != place) }

/-- The place that a step from a directory leads to. -/
def step (here : Place) (part : String) : Place :=
  if part == ".." then here.dropLast else here ++ [part]

/-- The place that parts lead to from a place; the last step may lead to nothing. -/
def walk (here : Place) : List String → Except Fault Place
  | [] => .ok here
  | part :: rest =>
    match d.at? here with
    | some .directory => walk (step here part) rest
    | some (.file _) => .error .notADirectory
    | none => .error .fileMissing

/-- Has a half of a surrogate pair a byte of its own in the name of a file? -/
def hasByte (half : Nat) : Bool := 0xDC80 ≤ half && half ≤ 0xDCFF

/-- What keeps a text from being the text of a path: halves without a byte, or characters of code
zero. -/
def flaw? (text : String) : Option Fault :=
  let points := Text.points text.toList
  if points.any fun n => Text.isHalf n && !hasByte n then some (.unpaired text)
  else if points.contains 0 then some (.unreadable .zeroInPath)
  else none

/-- A path without flaw. -/
def flawless (p : Path) : Except Fault Path :=
  match flaw? p.text with
  | some flaw => .error flaw
  | none => .ok p

/-- The place from which a path starts. -/
def start (p : Path) : Place := if p.isAbsolute then [] else d.workingDirectory

/-- The place that a path leads to. -/
def locate (p : Path) : Except Fault Place := do
  let p ← flawless p
  d.walk (d.start p) p.parts

/-- Is there anything where a path leads? -/
def «exists» (p : Path) : Bool :=
  match d.locate p with
  | .ok place => (d.at? place).isSome
  | .error _ => false

/-- The text of a file. -/
def read (p : Path) : Except Fault String := do
  match d.at? (← d.locate p) with
  | some (.file text) => return Text.unifyLineEnds text
  | some .directory => throw .isDirectory
  | none => throw .fileMissing

/-- Writes a text to a file, in place of what is in it. -/
def write (p : Path) (text : String) : Except Fault Disk := do
  let place ← d.locate p
  match d.at? place with
  | some .directory => throw .isDirectory
  | _ => return d.put place (.file text)

/-- Makes the directories that parts lead through from a place, where there is nothing yet. -/
def makeAlong (d : Disk) (here : Place) : List String → Except Fault Disk
  | [] =>
    match d.at? here with
    | some .directory => .ok d
    | _ => .error .fileExists
  | part :: rest =>
    match d.at? here with
    | some .directory =>
      let next := step here part
      makeAlong (if (d.at? next).isNone then d.put next .directory else d) next rest
    | some (.file _) => .error .notADirectory
    | none => .error .fileMissing

/-- Makes the directory of a path and those on the way, where there is nothing yet. -/
def makeDirectory (p : Path) : Except Fault Disk := do
  let p ← flawless p
  makeAlong d (d.start p) p.parts

/-- The texts of the files in a directory, with the names on the way from there. -/
def filesIn (directory : Place) : List (Place × String) :=
  d.contents.filterMap fun (place, content) =>
    match content with
    | .file text =>
      if directory.isPrefixOf place then some (place.drop directory.length, text) else none
    | .directory => none

end Disk

end ViewFinder
