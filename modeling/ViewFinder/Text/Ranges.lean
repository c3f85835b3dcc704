/-!
# Character classes as ranges of code points

A class of characters given by a published table is a list of inclusive code-point ranges in
ascending order; `inRanges` decides membership.
-/

namespace ViewFinder.Text

/-- Is the character in one of the ranges? -/
def inRanges (ranges : List (Nat × Nat)) (c : Char) : Bool :=
  ranges.any fun (low, high) => low ≤ c.toNat && c.toNat ≤ high

end ViewFinder.Text
