/-!
# Paths

A `Path` names a place in a tree of files by the parts that lead to it, from the root or from the
working directory. Empty parts and parts that stay where they are (`.`) are dropped when a path is
read; parts that lead back (`..`) are kept, for what they mean depends on the tree.
-/

namespace ViewFinder

/-- The way to a file or directory. -/
structure Path where
  /-- What the path starts with: nothing, if it starts from the working directory, or slashes. -/
  root : String := ""
  parts : List String := []
  deriving DecidableEq, Inhabited

namespace Path

/-- The root of a text. Two slashes are kept as two, more count as one. -/
def rootOf : List Char → String
  | ['/', '/'] => "//"
  | '/' :: '/' :: c :: _ => if c == '/' then "/" else "//"
  | '/' :: _ => "/"
  | _ => ""

/-- The path that a text describes. -/
def ofText (s : String) : Path :=
  let parts := (s.toList.splitOn '/').map String.ofList
  { root := rootOf s.toList, parts := parts.filter fun p => p != "" && p != "." }

/-- The text of a path. -/
def text (p : Path) : String :=
  if p.root.isEmpty && p.parts.isEmpty then "." else p.root ++ "/".intercalate p.parts

/-- Does the path start from the root? -/
def isAbsolute (p : Path) : Bool := !p.root.isEmpty

/-- The path of something in the directory of a path. -/
def child (p : Path) (name : String) : Path := { p with parts := p.parts ++ [name] }

/-- The path of the directory that holds what a path leads to. -/
def parent (p : Path) : Path := { p with parts := p.parts.dropLast }

end Path

end ViewFinder
