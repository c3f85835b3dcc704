/-!
# Ends of lines

Files end their lines with a line feed, a carriage return or both. A text is read with line feeds
alone.
-/

namespace ViewFinder.Text

/-- The characters with one line feed for each end of a line. -/
def unifyEnds : List Char → List Char
  | '\r' :: '\n' :: rest => '\n' :: unifyEnds rest
  | '\r' :: rest => '\n' :: unifyEnds rest
  | c :: rest => c :: unifyEnds rest
  | [] => []

/-- The text with one line feed for each end of a line. -/
def unifyLineEnds (s : String) : String := String.ofList (unifyEnds s.toList)

end ViewFinder.Text
